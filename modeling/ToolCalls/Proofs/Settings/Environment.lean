import ToolCalls.Proofs.Text.Runs
import ToolCalls.Settings

/-!
# Settings from an environment

Whatever an environment asks for is checked twice: a value that makes no sense is replaced by the
default, and the settings that come out are handed to `ScanOptions.check` and `Settings.check`,
which have rules of their own.  The two never disagree (`checkedOfEnvironment_eq`), because a
threshold that is kept is at least one and the name of a level that is kept is in upper case
already (`upper_of_level?`).

The words for yes and no may stand in either case and among white space
(`truthValue?_eq_some_iff`).

A `Setting` is one of the six things that can be chosen, with its own variable.  The settings of an
environment are the six of them side by side (`ofEnvironment_eq`).
-/

namespace ToolCalls

open Text (AllOf isWhite)

variable {α : Type}

/-! ## Words for yes and no -/

theorem Text.toLower_of_isWhite {c : Char} (h : isWhite c = true) : c.toLower = c := by
  have hrange : ∀ r ∈ Text.whiteRanges, r.2 < 'A'.toNat ∨ 'Z'.toNat < r.1 := by decide
  obtain ⟨r, hr, hlow, hhigh⟩ := Text.inRanges_iff.1 h
  have hnot : ¬ (c.val ≥ 'A'.val ∧ c.val ≤ 'Z'.val) := by
    rintro ⟨hA, hZ⟩
    have hA : 'A'.toNat ≤ c.toNat := hA
    have hZ : c.toNat ≤ 'Z'.toNat := hZ
    have := hrange r hr
    omega
  exact dif_neg hnot

namespace Environment

/-- The text is one of the words, in upper or lower case and with white space around it. -/
def Says (words : List Text) (t : Text) : Prop :=
  ∃ lead word trail, t = lead ++ (word ++ trail) ∧ AllOf isWhite lead ∧ AllOf isWhite trail ∧
    word.map Char.toLower ∈ words

theorem says_iff {words : List Text} (h : ∀ w ∈ words, w ≠ [] ∧ AllOf (fun c => !isWhite c) w)
    (t : Text) : Says words t ↔ (Text.trim isWhite t).map Char.toLower ∈ words := by
  constructor
  · rintro ⟨lead, word, trail, rfl, hlead, htrail, hword⟩
    have hne : word ≠ [] := by
      rintro rfl
      exact (h _ hword).1 rfl
    have hclean : AllOf (fun c => !isWhite c) word := by
      intro c hc
      by_cases hwhite : isWhite c = true
      · -- white space is its own lower case, so the word in lower case has it too
        exact (h _ hword).2 c (List.mem_map.2 ⟨c, hc, Text.toLower_of_isWhite hwhite⟩)
      · simpa using hwhite
    rwa [Text.trim_run hlead htrail hne hclean]
  · intro hword
    obtain ⟨lead, trail, ht, hlead, htrail⟩ := Text.exists_trim isWhite t
    exact ⟨lead, _, trail, ht, hlead, htrail, hword⟩

/-- The words for yes and no, in upper or lower case and with white space around them, are all that
means something for a flag. -/
theorem truthValue?_eq_some_iff (t : Text) :
    (truthValue? t = some true ↔
      Says ["true".toList, "1".toList, "yes".toList, "on".toList] t) ∧
    (truthValue? t = some false ↔
      Says ["false".toList, "0".toList, "no".toList, "off".toList] t) := by
  have hyes : ∀ w ∈ yesWords, w ≠ [] ∧ AllOf (fun c => !isWhite c) w := by decide
  have hno : ∀ w ∈ noWords, w ≠ [] ∧ AllOf (fun c => !isWhite c) w := by decide
  have hapart : ∀ w ∈ noWords, w ∉ yesWords := by decide
  change (_ ↔ Says yesWords t) ∧ (_ ↔ Says noWords t)
  rw [says_iff hyes, says_iff hno]
  simp only [truthValue?, List.contains_iff_mem]
  generalize (Text.trim isWhite t).map Char.toLower = word
  by_cases hmem : word ∈ yesWords
  · have hmem' : word ∉ noWords := fun h => hapart word h hmem
    simp [hmem, hmem']
  · by_cases hmem' : word ∈ noWords
    · simp [hmem, hmem']
    · simp [hmem, hmem']

end Environment

/-! ## Settings one by one -/

/-- A setting with a variable of its own: what a value of the variable means, if anything, and what
the setting is without one that means something. -/
structure Setting (α : Type) where
  key : Text
  meaning? : Text → Option α
  fallback : α

namespace Setting

/-- The setting in an environment. -/
def value (s : Setting α) (env : Environment) : α :=
  ((env.get? s.key).bind s.meaning?).getD s.fallback

/-- A truth value, which is yes if nothing else is said. -/
def flag (name : String) : Setting Bool where
  key := Environment.key name
  meaning? := Environment.truthValue?
  fallback := true

/-- The flush threshold: an integer from one on. -/
def threshold : Setting Nat where
  key := Environment.key "TEXT_FLUSH_THRESHOLD"
  meaning? t := (Decimal.toInt? t).bind fun n => if n < 1 then none else some n.toNat
  fallback := 80

/-- What stands for a call that the stream breaks off in: any text but the empty one. -/
def marker : Setting Text where
  key := Environment.key "INCOMPLETE_MARKER"
  meaning? t := if t.isEmpty then none else some t
  fallback := "[Incomplete tool call: \x7braw\x7d]".toList

/-- The name of the log level: one that is known, in upper or lower case. -/
def levelName : Setting Text where
  key := Environment.key "LOG_LEVEL"
  meaning? t := if (Log.level? (Text.upper t)).isSome then some (Text.upper t) else none
  fallback := "INFO".toList

/-- The names of the six variables. -/
def keys : List Text :=
  [(flag "REQUIRE_LINE_END").key, (flag "STRIP_INFO_STRING").key, threshold.key, marker.key,
    levelName.key, (flag "STRUCTURED_LOGGING").key]

variable {s : Setting α} {env env' : Environment}

theorem value_of_meaning {t : Text} {a : α} (h : env.get? s.key = some t)
    (ht : s.meaning? t = some a) : s.value env = a := by
  rw [value, h, Option.bind_some, ht, Option.getD_some]

theorem value_of_no_meaning (h : ∀ t, env.get? s.key = some t → s.meaning? t = none) :
    s.value env = s.fallback := by
  have hnone : (env.get? s.key).bind s.meaning? = none := Option.bind_eq_none_iff.2 h
  rw [value, hnone, Option.getD_none]

theorem value_congr (h : env.get? s.key = env'.get? s.key) : s.value env = s.value env' := by
  rw [value, value, h]

/-- What holds of the default and of all that a variable can mean holds of the setting. -/
theorem value_induction {P : α → Prop} (hfallback : P s.fallback)
    (hmeaning : ∀ t a, s.meaning? t = some a → P a) (env : Environment) : P (s.value env) := by
  unfold value
  cases h : (env.get? s.key).bind s.meaning? with
  | none => exact hfallback
  | some a =>
    obtain ⟨t, -, ht⟩ := Option.bind_eq_some_iff.1 h
    exact hmeaning t a ht

/-- A part of the settings of an environment is a setting of its own. -/
structure Governs (s : Setting α) (part : Settings → α) : Prop where
  /-- The setting and the settings as a whole have the same default. -/
  fallback_eq : s.fallback = part {}
  /-- The empty value means nothing. -/
  empty : s.meaning? [] = none
  /-- A value that means something is what is taken. -/
  taken : ∀ env t a, env.get? s.key = some t → s.meaning? t = some a →
    part (.ofEnvironment env) = a
  /-- A variable that is missing or means nothing leaves the default. -/
  left : ∀ env, (∀ t, env.get? s.key = some t → s.meaning? t = none) →
    part (.ofEnvironment env) = part {}
  /-- No other variable matters. -/
  own : ∀ env env', env.get? s.key = env'.get? s.key →
    part (.ofEnvironment env) = part (.ofEnvironment env')

theorem governs_of_value {part : Settings → α} (h : ∀ env, part (.ofEnvironment env) = s.value env)
    (hfallback : s.fallback = part {}) (hempty : s.meaning? [] = none) : s.Governs part where
  fallback_eq := hfallback
  empty := hempty
  taken env t a hget ht := by rw [h, value_of_meaning hget ht]
  left env hget := by rw [h, value_of_no_meaning hget, hfallback]
  own env env' hget := by rw [h, h, value_congr hget]

end Setting

/-! ## All settings -/

open Setting (flag)

theorem threshold_value (env : Environment) :
    (ScanOptions.ofEnvironment env).flushThreshold = Setting.threshold.value env := by
  unfold ScanOptions.ofEnvironment Environment.integer? Setting.value Setting.threshold
  cases hget : env.get? (Environment.key "TEXT_FLUSH_THRESHOLD") with
  | none => rfl
  | some t =>
    cases hn : Decimal.toInt? t with
    | none => simp [hn]
    | some n =>
      by_cases hlow : n < 1
      · simp [hn, hlow]
      · simp [hn, hlow]

theorem levelName_value (env : Environment) :
    Settings.levelNameOfEnvironment env = Setting.levelName.value env := by
  have hempty : (Log.level? []).isSome = false := by decide
  unfold Settings.levelNameOfEnvironment Environment.text? Setting.value Setting.levelName
  cases hget : env.get? (Environment.key "LOG_LEVEL") with
  | none => rfl
  | some t =>
    by_cases hnil : t = []
    · simp [hnil, hempty]
    · by_cases hlevel : (Log.level? (Text.upper t)).isSome = true
      · simp [hnil, hlevel]
      · simp [hnil, hlevel]

/-- The settings of an environment are its six settings side by side. -/
theorem ofEnvironment_eq (env : Environment) :
    Settings.ofEnvironment env =
      { reading :=
          { requireLineEnd := (flag "REQUIRE_LINE_END").value env
            dropTag := (flag "STRIP_INFO_STRING").value env }
        scanning :=
          { flushThreshold := Setting.threshold.value env, marker := Setting.marker.value env }
        levelName := Setting.levelName.value env
        structured := (flag "STRUCTURED_LOGGING").value env } := by
  rw [← threshold_value, ← levelName_value]
  rfl

/-- A known name of a level is in upper case. -/
theorem upper_of_level? {name : Text} (h : (Log.level? name).isSome = true) :
    Text.upper name = name := by
  have hall : ∀ e ∈ Log.levelNames, Text.upper e.1 = e.1 := by decide
  obtain ⟨level, hlevel⟩ := Option.isSome_iff_exists.1 h
  obtain ⟨before, after, heq, -⟩ := List.lookup_eq_some_iff.1 hlevel
  exact hall (name, level) (by simp [heq])

theorem one_le_threshold (env : Environment) : 1 ≤ Setting.threshold.value env := by
  apply Setting.value_induction (P := fun n => 1 ≤ n)
  · decide
  · intro t a ht
    obtain ⟨n, -, hn⟩ := Option.bind_eq_some_iff.1 ht
    by_cases hlow : n < 1
    · rw [if_pos hlow] at hn
      cases hn
    · rw [if_neg hlow, Option.some.injEq] at hn
      omega

theorem marker_ne_nil (env : Environment) : Setting.marker.value env ≠ [] := by
  apply Setting.value_induction (P := fun m => m ≠ [])
  · decide
  · rintro t a ht rfl
    simp [Setting.marker] at ht

theorem isSome_level (env : Environment) :
    (Log.level? (Setting.levelName.value env)).isSome = true := by
  apply Setting.value_induction (P := fun name => (Log.level? name).isSome = true)
  · decide
  · intro t name ht
    by_cases hlevel : (Log.level? (Text.upper t)).isSome = true
    · obtain rfl : Text.upper t = name := by simpa [Setting.levelName, hlevel] using ht
      exact hlevel
    · simp [Setting.levelName, hlevel] at ht

/-! ## The checks -/

theorem ScanOptions.check_self {o : ScanOptions} (h : 1 ≤ o.flushThreshold) :
    check o.flushThreshold o.marker = .ok o := by
  have hnot : ¬ (o.flushThreshold : Int) < 1 := by omega
  rw [check, if_neg hnot]
  rfl

theorem Settings.check_self {s : Settings} (h : (Log.level? s.levelName).isSome = true) :
    check s.reading s.scanning s.levelName s.structured = .ok s := by
  unfold check
  rw [upper_of_level? h]
  exact if_pos h

/-- The scan options that an environment asks for, handed to the check for them. -/
def ScanOptions.checkedOfEnvironment (env : Environment) : Except (List Defect) ScanOptions :=
  let threshold : Int :=
    match env.integer? (Environment.key "TEXT_FLUSH_THRESHOLD") with
    | some n => if n < 1 then ({} : ScanOptions).flushThreshold else n
    | none => ({} : ScanOptions).flushThreshold
  check threshold
    ((env.text? (Environment.key "INCOMPLETE_MARKER")).getD ({} : ScanOptions).marker)

/-- The settings that an environment asks for, handed to the checks for them. -/
def Settings.checkedOfEnvironment (env : Environment) : Except (List Defect) Settings := do
  let scanning ← ScanOptions.checkedOfEnvironment env
  check (.ofEnvironment env) scanning (levelNameOfEnvironment env)
    ((env.flag? (Environment.key "STRUCTURED_LOGGING")).getD true)

theorem ScanOptions.checkedOfEnvironment_eq (env : Environment) :
    checkedOfEnvironment env = .ok (.ofEnvironment env) := by
  unfold checkedOfEnvironment ofEnvironment
  cases env.integer? (Environment.key "TEXT_FLUSH_THRESHOLD") with
  | none => rfl
  | some n =>
    by_cases hlow : n < 1
    · simp only [if_pos hlow]
      rfl
    · simp only [if_neg hlow, check]

/-- The checks never refuse what an environment asks for. -/
theorem Settings.checkedOfEnvironment_eq (env : Environment) :
    checkedOfEnvironment env = .ok (ofEnvironment env) := by
  have hlevel : (Log.level? (ofEnvironment env).levelName).isSome = true := by
    rw [ofEnvironment_eq]
    exact isSome_level env
  rw [checkedOfEnvironment, ScanOptions.checkedOfEnvironment_eq]
  exact check_self hlevel

/-- Every environment gives settings.  Their threshold is at least one, their marker is not empty
and their level is known, so the checks pass them, on the way and once more, and change nothing.
Each of the six settings has a variable of its own, which alone decides about it, and is left at its
default if that variable is missing, empty or means nothing.  What means something for a flag are
the words for yes and no. -/
theorem Settings.ofEnvironment_passes_checks (env : Environment) :
    checkedOfEnvironment env = .ok (ofEnvironment env) ∧
    1 ≤ (ofEnvironment env).scanning.flushThreshold ∧
    (ofEnvironment env).scanning.marker ≠ [] ∧
    (Log.level? (ofEnvironment env).levelName).isSome = true ∧
    ScanOptions.check (ofEnvironment env).scanning.flushThreshold
      (ofEnvironment env).scanning.marker = .ok (ofEnvironment env).scanning ∧
    check (ofEnvironment env).reading (ofEnvironment env).scanning (ofEnvironment env).levelName
      (ofEnvironment env).structured = .ok (ofEnvironment env) ∧
    Setting.keys.Nodup ∧
    (flag "REQUIRE_LINE_END").Governs (·.reading.requireLineEnd) ∧
    (flag "STRIP_INFO_STRING").Governs (·.reading.dropTag) ∧
    Setting.threshold.Governs (·.scanning.flushThreshold) ∧
    Setting.marker.Governs (·.scanning.marker) ∧
    Setting.levelName.Governs (·.levelName) ∧
    (flag "STRUCTURED_LOGGING").Governs (·.structured) ∧
    ∀ t, (Environment.truthValue? t = some true ↔
        Environment.Says ["true".toList, "1".toList, "yes".toList, "on".toList] t) ∧
      (Environment.truthValue? t = some false ↔
        Environment.Says ["false".toList, "0".toList, "no".toList, "off".toList] t) := by
  have hthreshold : 1 ≤ (ofEnvironment env).scanning.flushThreshold := by
    rw [ofEnvironment_eq]
    exact one_le_threshold env
  have hlevel : (Log.level? (ofEnvironment env).levelName).isSome = true := by
    rw [ofEnvironment_eq]
    exact isSome_level env
  refine ⟨checkedOfEnvironment_eq env, hthreshold, ?_, hlevel, ScanOptions.check_self hthreshold,
    check_self hlevel, by decide, ?_, ?_, ?_, ?_, ?_, ?_, Environment.truthValue?_eq_some_iff⟩
  · rw [ofEnvironment_eq]
    exact marker_ne_nil env
  all_goals
    apply Setting.governs_of_value
    · intro env
      rw [ofEnvironment_eq]
    · decide
    · decide

/-- A word for no in mixed case and among white space is taken, a word that is neither is not.  The
long s becomes the letter of a known name, and a threshold of zero is none. -/
example :
    let env : Environment :=
      [((flag "REQUIRE_LINE_END").key, " oFF\n".toList),
        ((flag "STRIP_INFO_STRING").key, "never".toList),
        (Setting.levelName.key, "not\u017fet".toList), (Setting.threshold.key, " 0 ".toList)]
    (Settings.ofEnvironment env).reading = { requireLineEnd := false, dropTag := true } ∧
      (Settings.ofEnvironment env).levelName = "NOTSET".toList ∧
      (Settings.ofEnvironment env).scanning.flushThreshold = 80 := by
  decide +kernel

end ToolCalls
