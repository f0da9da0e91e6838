import ToolCalls.Log.Level
import ToolCalls.Options
import ToolCalls.Text.Upper

/-!
# Settings

All that can be chosen, and how it is taken from the variables of an environment.  A variable that
is missing, empty or makes no sense leaves its setting at the default.
-/

namespace ToolCalls

/-- Variables and their values. -/
abbrev Environment := Fields Text

namespace Environment

/-- Why a variable can be in no environment. -/
inductive Misnomer where
  /-- Its name or its value has a null character, with which the texts of an environment end. -/
  | nullCharacter
  /-- Its name has an equals sign, which stands between name and value. -/
  | equalsSign
  /-- It has no name. -/
  | noName
deriving DecidableEq, Repr

/-- The wording of the refusal. -/
def Misnomer.message : Misnomer → Text
  | nullCharacter => "embedded null byte".toList
  | equalsSign => "illegal environment variable name".toList
  | noName => "[Errno 22] Invalid argument".toList

/-- Why a variable can be in no environment, if it cannot. -/
def misnomer? (name value : Text) : Option Misnomer :=
  if name.contains '\x00' || value.contains '\x00' then some .nullCharacter
  else if name.contains '=' then some .equalsSign
  else if name.isEmpty then some .noName
  else none

/-- The environment with the given variables, a later entry of a name replacing the earlier value,
or what is wrong with the first variable that can be in none.  A value that has been replaced does
not matter. -/
def ofList (entries : List (Text × Text)) : Except Misnomer Environment :=
  let env := Fields.ofList entries
  match env.findSome? fun e => misnomer? e.1 e.2 with
  | some m => .error m
  | none => .ok env

/-- The words that stand for yes. -/
def yesWords : List Text := ["true".toList, "1".toList, "yes".toList, "on".toList]

/-- The words that stand for no. -/
def noWords : List Text := ["false".toList, "0".toList, "no".toList, "off".toList]

/-- The truth value that a word stands for, in upper or lower case and with white space around it.
Only ASCII letters have to be brought to lower case: no other character has a lower case among the
letters of these words. -/
def truthValue? (t : Text) : Option Bool :=
  let word := (Text.trim Text.isWhite t).map Char.toLower
  if yesWords.contains word then some true
  else if noWords.contains word then some false
  else none

/-- The truth value of a variable. -/
def flag? (env : Environment) (key : Text) : Option Bool := (env.get? key).bind truthValue?

/-- The integer in a variable. -/
def integer? (env : Environment) (key : Text) : Option Int := (env.get? key).bind Decimal.toInt?

/-- The text in a variable, if it is not empty. -/
def text? (env : Environment) (key : Text) : Option Text :=
  (env.get? key).bind fun t => if t.isEmpty then none else some t

/-- The name of the variable for a setting. -/
def key (name : String) : Text := "CHUK_TOOL_FORMAT_".toList ++ name.toList

end Environment

/-- The read options that an environment asks for. -/
def ReadOptions.ofEnvironment (env : Environment) : ReadOptions where
  requireLineEnd := (env.flag? (Environment.key "REQUIRE_LINE_END")).getD true
  dropTag := (env.flag? (Environment.key "STRIP_INFO_STRING")).getD true

/-- The scan options that an environment asks for.  A threshold below one counts as none. -/
def ScanOptions.ofEnvironment (env : Environment) : ScanOptions where
  flushThreshold :=
    match env.integer? (Environment.key "TEXT_FLUSH_THRESHOLD") with
    | some n => if n < 1 then ({} : ScanOptions).flushThreshold else n.toNat
    | none => ({} : ScanOptions).flushThreshold
  marker := (env.text? (Environment.key "INCOMPLETE_MARKER")).getD ({} : ScanOptions).marker

/-- All that can be chosen. -/
structure Settings where
  reading : ReadOptions := {}
  scanning : ScanOptions := {}
  /-- The name of the log level. -/
  levelName : Text := "INFO".toList
  /-- Whether log lines are structured. -/
  structured : Bool := true
deriving DecidableEq, Repr

namespace Settings

/-- The settings with the level of the given name, in upper or lower case, if there is one. -/
def check (reading : ReadOptions) (scanning : ScanOptions) (levelName : Text) (structured : Bool) :
    Except (List Defect) Settings :=
  let name := Text.upper levelName
  if (Log.level? name).isSome then .ok ⟨reading, scanning, name, structured⟩
  else .error [.unknownLevel name]

/-- The name of the level that an environment asks for. -/
def levelNameOfEnvironment (env : Environment) : Text :=
  match env.text? (Environment.key "LOG_LEVEL") with
  | some t =>
    let name := Text.upper t
    if (Log.level? name).isSome then name else ({} : Settings).levelName
  | none => ({} : Settings).levelName

/-- The settings that an environment asks for. -/
def ofEnvironment (env : Environment) : Settings where
  reading := .ofEnvironment env
  scanning := .ofEnvironment env
  levelName := levelNameOfEnvironment env
  structured := (env.flag? (Environment.key "STRUCTURED_LOGGING")).getD true

/-- The log level. -/
def level (s : Settings) : Int := (Log.level? s.levelName).getD 0

end Settings

end ToolCalls
