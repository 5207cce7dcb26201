import LedgerNode.Config
import Mathlib.Data.List.Basic
import Mathlib.Data.List.TakeWhile

/-!
# Overriding settings

The variables are read one after the other, and each changes the configuration that the ones before
it have left. Since a variable changes its own setting only, this is the same as looking at each of
them by itself: all of them have to be usable, and the first that is not is the error.

- `Config.SpellsNumber`, `Config.NamesLevel`: the spellings of numbers and levels. Settings are read
  as they are spelled (`Config.Kind.read?_eq_some_iff`).
- `Config.Variable.setting`, `Config.Variable.put`: the setting that a variable overrides.
- `Config.Variable.IsUsable`, `Config.Variable.IsFollowed`: what the variables ask for.
- `Config.ofLookup_overrides`: what they do.
-/

namespace LedgerNode

/-! ## Blanks around a text -/

namespace Text

/-- What is cut off at the ends of a text is blank. -/
theorem exists_append_trim (s : String) : ∃ before after,
    s.toList = before ++ (trim s).toList ++ after ∧
      (∀ c ∈ before, isBlank c = true) ∧ ∀ c ∈ after, isBlank c = true := by
  obtain ⟨rest, hrest⟩ : ∃ rest, rest = s.toList.dropWhile isBlank := ⟨_, rfl⟩
  have hblank : ∀ cs : List Char, ∀ c ∈ cs.takeWhile isBlank, isBlank c = true :=
    fun cs c hc => List.mem_takeWhile_imp hc
  refine ⟨s.toList.takeWhile isBlank, (rest.reverse.takeWhile isBlank).reverse, ?_, hblank _,
    fun c hc => hblank _ c (List.mem_reverse.mp hc)⟩
  rw [trim, String.toList_ofList, ← hrest, List.append_assoc, ← List.reverse_append,
    List.takeWhile_append_dropWhile, List.reverse_reverse, hrest, List.takeWhile_append_dropWhile]

theorem dropWhile_isBlank {cs : List Char} (h : ∀ c ∈ cs.head?, isBlank c = false) :
    cs.dropWhile isBlank = cs := by
  cases cs with
  | nil => rfl
  | cons c cs => exact List.dropWhile_cons_of_neg (Bool.eq_false_iff.mp (h c rfl))

/-- What stands between blanks and has none is left. -/
theorem toList_trim_of_eq {s : String} {before core after : List Char}
    (h : s.toList = before ++ core ++ after) (hbefore : ∀ c ∈ before, isBlank c = true)
    (hafter : ∀ c ∈ after, isBlank c = true) (hcore : ∀ c ∈ core, isBlank c = false)
    (hne : core ≠ []) : (trim s).toList = core := by
  have hfront : (core ++ after).dropWhile isBlank = core ++ after := by
    refine dropWhile_isBlank fun c hc => hcore c (List.mem_of_mem_head? ?_)
    rwa [List.head?_append_of_ne_nil core hne] at hc
  have hback : core.reverse.dropWhile isBlank = core.reverse :=
    dropWhile_isBlank fun c hc => hcore c (List.mem_reverse.mp (List.mem_of_mem_head? hc))
  rw [trim, String.toList_ofList, h, List.append_assoc, List.dropWhile_append_of_pos hbefore,
    hfront, List.reverse_append,
    List.dropWhile_append_of_pos fun c hc => hafter c (List.mem_reverse.mp hc), hback,
    List.reverse_reverse]

theorem isBlank_of_isDigit {c : Char} (h : c.isDigit = true) : isBlank c = false := by
  have hbounds : 48 ≤ c.toNat ∧ c.toNat ≤ 57 := by
    simpa [Char.isDigit, UInt32.le_iff_toNat_le] using h
  have hranges : ∀ range ∈ blankRanges, range.2 < 48 ∨ 57 < range.1 := by decide
  rw [isBlank, List.any_eq_false]
  intro range hrange
  have houtside := hranges range hrange
  simp only [Bool.and_eq_true, decide_eq_true_eq]
  omega

end Text

namespace Config

/-! ## Spellings -/

/-- The spelling of a number below a bound: decimal digits, behind a plus sign or not, with blanks
around them. -/
def SpellsNumber (bound : Nat) (value : String) (n : Nat) : Prop :=
  ∃ before sign digits after, value.toList = before ++ (sign ++ digits) ++ after ∧
    (∀ c ∈ before, Text.isBlank c = true) ∧ (∀ c ∈ after, Text.isBlank c = true) ∧
    (sign = [] ∨ sign = ['+']) ∧ digits ≠ [] ∧ (∀ c ∈ digits, c.isDigit = true) ∧
    Nat.ofDigitChars 10 digits 0 = n ∧ n < bound

/-- The names of levels. -/
def levelNames : List (String × Log.Level) :=
  [("debug", .debug), ("info", .info), ("warn", .warning), ("warning", .warning), ("error", .error)]

/-- The spelling of a level: one of its names, but for the case of the letters. -/
def NamesLevel (value : String) (level : Log.Level) : Prop :=
  ∃ name, (name, level) ∈ levelNames ∧ Text.sameFolded value name = true

/-- Characters without a plus sign in front. -/
def unsigned : List Char → List Char
  | '+' :: digits => digits
  | digits => digits

theorem exists_sign_append_unsigned (cs : List Char) :
    ∃ sign, (sign = [] ∨ sign = ['+']) ∧ cs = sign ++ unsigned cs := by
  unfold unsigned
  split
  · exact ⟨['+'], .inr rfl, rfl⟩
  · exact ⟨[], .inl rfl, rfl⟩

theorem unsigned_of_isDigit {c : Char} (h : c.isDigit = true) (cs : List Char) :
    unsigned (c :: cs) = c :: cs := by
  unfold unsigned
  split
  · rename_i heq
    obtain ⟨rfl, -⟩ := List.cons.inj heq
    exact absurd h (by decide)
  · rfl

theorem number?_eq_some_iff_unsigned {bound : Nat} {value : String} {n : Nat} :
    number? bound value = some n ↔ unsigned (Text.trim value).toList ≠ [] ∧
      (∀ c ∈ unsigned (Text.trim value).toList, c.isDigit = true) ∧
      Nat.ofDigitChars 10 (unsigned (Text.trim value).toList) 0 = n ∧ n < bound := by
  unfold number?
  generalize (Text.trim value).toList = cs
  change (if unsigned cs ≠ [] ∧ (unsigned cs).all Char.isDigit = true then
    if Nat.ofDigitChars 10 (unsigned cs) 0 < bound then some (Nat.ofDigitChars 10 (unsigned cs) 0)
    else none else none) = some n ↔ _
  rw [Option.ite_none_right_eq_some, Option.ite_none_right_eq_some, List.all_eq_true,
    and_assoc, Option.some_inj, and_comm (a := _ < bound)]
  have hvalue : ∀ m : Nat, m = n ∧ m < bound ↔ m = n ∧ n < bound :=
    fun m => and_congr_right fun h => by rw [h]
  rw [hvalue]

/-- Numbers are read as they are spelled. -/
theorem number?_eq_some_iff {bound : Nat} {value : String} {n : Nat} :
    number? bound value = some n ↔ SpellsNumber bound value n := by
  rw [number?_eq_some_iff_unsigned]
  constructor
  · intro h
    obtain ⟨before, after, hvalue, hbefore, hafter⟩ := Text.exists_append_trim value
    obtain ⟨sign, hsign, hcore⟩ := exists_sign_append_unsigned (Text.trim value).toList
    rw [hcore] at hvalue
    exact ⟨before, sign, _, after, hvalue, hbefore, hafter, hsign, h⟩
  · rintro ⟨before, sign, digits, after, hvalue, hbefore, hafter, hsign, hne, hdigits, hn⟩
    obtain ⟨d, ds, rfl⟩ := List.exists_cons_of_ne_nil hne
    have hd : d.isDigit = true := hdigits d List.mem_cons_self
    have hcore : ∀ c ∈ sign ++ d :: ds, Text.isBlank c = false := by
      rw [List.forall_mem_append]
      refine ⟨?_, fun c hc => Text.isBlank_of_isDigit (hdigits c hc)⟩
      rcases hsign with rfl | rfl
      · exact fun c hc => absurd hc List.not_mem_nil
      · exact List.forall_mem_singleton.mpr (by decide)
    have htrim := Text.toList_trim_of_eq hvalue hbefore hafter hcore
      (List.append_ne_nil_of_right_ne_nil sign hne)
    have hunsigned : unsigned (sign ++ d :: ds) = d :: ds := by
      rcases hsign with rfl | rfl
      · exact unsigned_of_isDigit hd ds
      · rfl
    rw [htrim, hunsigned]
    exact ⟨hne, hdigits, hn⟩

theorem ofName?_eq_find? (value : String) : Log.Level.ofName? value =
    (levelNames.find? fun entry => entry.1 = Text.fold value).map Prod.snd := by
  unfold Log.Level.ofName?
  generalize Text.fold value = folded
  split
  · rfl
  · rfl
  · rfl
  · rfl
  · rfl
  · rename_i hdebug hinfo hwarn hwarning herror
    simp [levelNames, Ne.symm hdebug, Ne.symm hinfo, Ne.symm hwarn, Ne.symm hwarning,
      Ne.symm herror]

/-- Levels are read as they are named. -/
theorem ofName?_eq_some_iff {value : String} {level : Log.Level} :
    Log.Level.ofName? value = some level ↔ NamesLevel value level := by
  -- The names are in lower case, and none of them names two levels.
  have hnames : ∀ entry ∈ levelNames, Text.fold entry.1 = entry.1 ∧
      Log.Level.ofName? entry.1 = some entry.2 := by decide +kernel
  constructor
  · intro h
    rw [ofName?_eq_find?, Option.map_eq_some_iff] at h
    obtain ⟨entry, hfind, rfl⟩ := h
    have hmem := List.mem_of_find?_eq_some hfind
    have hfold : entry.1 = Text.fold value := by simpa using List.find?_some hfind
    refine ⟨entry.1, hmem, ?_⟩
    rw [Text.sameFolded, decide_eq_true_iff, (hnames entry hmem).1, hfold]
  · rintro ⟨name, hmem, hsame⟩
    have hfold : Text.fold value = Text.fold name := by
      simpa only [Text.sameFolded, decide_eq_true_iff] using hsame
    rw [← (hnames _ hmem).2, ofName?_eq_find?, ofName?_eq_find?, hfold]

/-! ## Settings -/

/-- The kinds of settings. -/
inductive Kind where
  | port
  | level
  | size
deriving DecidableEq, Repr

/-- The values of a kind of settings. -/
abbrev Kind.Value : Kind → Type
  | port => UInt16
  | level => Log.Level
  | size => Nat

/-- The value that a text spells. -/
def Kind.read? : (kind : Kind) → String → Option kind.Value
  | port => port?
  | level => Log.Level.ofName?
  | size => size?

/-- The spelling of a value. Ports take sixteen bits and sizes sixty-four. -/
def Kind.Spells : (kind : Kind) → String → kind.Value → Prop
  | port, value, n => SpellsNumber UInt16.size value n.toNat
  | level, value, l => NamesLevel value l
  | size, value, n => SpellsNumber UInt64.size value n

theorem SpellsNumber.lt {bound n : Nat} {value : String} (h : SpellsNumber bound value n) :
    n < bound := by
  obtain ⟨_, _, _, _, _, _, _, _, _, _, _, hlt⟩ := h
  exact hlt

/-- Values are read as they are spelled. -/
theorem Kind.read?_eq_some_iff {kind : Kind} {value : String} {x : kind.Value} :
    kind.read? value = some x ↔ kind.Spells value x := by
  cases kind with
  | port =>
    simp only [read?, port?, Spells, Option.map_eq_some_iff, number?_eq_some_iff]
    constructor
    · rintro ⟨n, hn, rfl⟩
      rwa [UInt16.toNat_ofNat_of_lt' hn.lt]
    · intro h
      exact ⟨UInt16.toNat x, h, UInt16.ofNat_toNat⟩
  | level =>
    simp only [read?, Spells]
    exact ofName?_eq_some_iff
  | size => simp only [read?, size?, Spells, number?_eq_some_iff]

theorem Kind.read?_eq_none_iff {kind : Kind} {value : String} :
    kind.read? value = none ↔ ¬ ∃ x, kind.Spells value x := by
  simp only [← Kind.read?_eq_some_iff, Option.eq_none_iff_forall_ne_some, not_exists, ne_eq]

/-- A value of some kind. -/
structure Setting where
  kind : Kind
  value : kind.Value

namespace Variable

/-- The kind of the setting that a variable overrides. -/
def kind : Variable → Kind
  | logLevel => .level
  | maxInvocationDepth => .size
  | maxStackSize => .size
  | _ => .port

/-- The setting that a variable overrides. -/
def setting : (v : Variable) → Config → v.kind.Value
  | nodePort, config => config.nodePort
  | infoPort, config => config.infoPort
  | restPort, config => config.restPort
  | webSocketPort, config => config.webSocketPort
  | jsonPort, config => config.jsonPort
  | localPort, config => config.localPort
  | logLevel, config => config.logLevel
  | maxInvocationDepth, config => config.limits.maxInvocationDepth
  | maxStackSize, config => config.limits.maxStackSize

/-- The configuration with another value of the setting. -/
def put : (v : Variable) → v.kind.Value → Config → Config
  | nodePort, port, config => { config with nodePort := port }
  | infoPort, port, config => { config with infoPort := port }
  | restPort, port, config => { config with restPort := port }
  | webSocketPort, port, config => { config with webSocketPort := port }
  | jsonPort, port, config => { config with jsonPort := port }
  | localPort, port, config => { config with localPort := port }
  | logLevel, level, config => { config with logLevel := level }
  | maxInvocationDepth, n, config =>
    { config with limits := { config.limits with maxInvocationDepth := n } }
  | maxStackSize, n, config => { config with limits := { config.limits with maxStackSize := n } }

theorem override?_eq (v : Variable) (value : String) (config : Config) :
    v.override? value config = (v.kind.read? value).map fun x => v.put x config := by
  cases v <;> rfl

@[simp] theorem setting_put_self (v : Variable) (x : v.kind.Value) (config : Config) :
    v.setting (v.put x config) = x := by
  cases v <;> rfl

theorem setting_put_of_ne {u v : Variable} (h : u ≠ v) (x : v.kind.Value) (config : Config) :
    u.setting (v.put x config) = u.setting config := by
  cases v <;> cases u <;> first | rfl | exact absurd rfl h

@[simp] theorem version_put (v : Variable) (x : v.kind.Value) (config : Config) :
    (v.put x config).version = config.version := by
  cases v <;> rfl

end Variable

/-- A configuration is known by its version and the settings. -/
theorem ext_setting {a b : Config} (hversion : a.version = b.version)
    (h : ∀ v : Variable, v.setting a = v.setting b) : a = b := by
  obtain ⟨_, _, _, _, _, _, _, _, _, _⟩ := a
  obtain ⟨_, _, _, _, _, _, _, _, _, _⟩ := b
  simp only [mk.injEq, Limits.mk.injEq]
  exact ⟨hversion, h .nodePort, h .infoPort, h .restPort, h .webSocketPort, h .jsonPort,
    h .localPort, h .logLevel, h .maxInvocationDepth, h .maxStackSize⟩

/-! ## Reading the variables -/

section

variable (lookup : String → Option String)

namespace Variable

/-- A variable that is not defined, or whose value spells a setting. -/
def IsUsable (v : Variable) : Prop :=
  ∀ value, lookup v.name = some value → ∃ x, v.kind.Spells value x

/-- A configuration in which a setting is as its variable says, or the default without one. -/
def IsFollowed (v : Variable) (config : Config) : Prop :=
  match lookup v.name with
  | none => v.setting config = v.setting {}
  | some value => v.kind.Spells value (v.setting config)

/-- The value that a variable gives. -/
def given? (v : Variable) : Option v.kind.Value :=
  (lookup v.name).bind v.kind.read?

/-- The configuration after a usable variable has been read. -/
def applied (v : Variable) (config : Config) : Config :=
  match v.given? lookup with
  | none => config
  | some x => v.put x config

theorem isUsable_or (v : Variable) : v.IsUsable lookup ∨
    ∃ value, lookup v.name = some value ∧ v.kind.read? value = none := by
  cases hvalue : lookup v.name with
  | none => exact .inl fun value h => absurd (hvalue.symm.trans h) (by simp)
  | some value =>
    cases hread : v.kind.read? value with
    | none => exact .inr ⟨value, rfl, hread⟩
    | some x =>
      refine .inl fun value' h => ⟨x, ?_⟩
      obtain rfl := Option.some.inj (hvalue.symm.trans h)
      exact Kind.read?_eq_some_iff.mp hread

end Variable

/-- A usable variable is applied. -/
theorem readVariable_of_isUsable {v : Variable} (h : v.IsUsable lookup) (config : Config) :
    readVariable lookup config v = .ok (v.applied lookup config) := by
  unfold readVariable Variable.applied Variable.given?
  cases hvalue : lookup v.name with
  | none => rfl
  | some value =>
    obtain ⟨x, hx⟩ := h value hvalue
    simp only [Variable.override?_eq, Kind.read?_eq_some_iff.mpr hx, Option.map_some,
      Option.bind_some]

/-- Another variable is the error. -/
theorem readVariable_of_read?_eq_none {v : Variable} {value : String}
    (hvalue : lookup v.name = some value) (h : v.kind.read? value = none) (config : Config) :
    readVariable lookup config v = .error (.invalidValue v value) := by
  unfold readVariable
  simp only [hvalue, Variable.override?_eq, h, Option.map_none]

/-- Usable variables are applied one after the other. -/
theorem foldlM_readVariable_of_isUsable {vs : List Variable} (h : ∀ v ∈ vs, v.IsUsable lookup)
    (config : Config) : vs.foldlM (readVariable lookup) config =
      .ok (vs.foldl (fun config v => v.applied lookup config) config) := by
  induction vs generalizing config with
  | nil => rfl
  | cons v vs ih =>
    rw [List.forall_mem_cons] at h
    rw [List.foldlM_cons, readVariable_of_isUsable lookup h.1]
    exact ih h.2 _

/-- The first variable that is not usable is the error. -/
theorem foldlM_readVariable_of_first {before after : List Variable} {v : Variable} {value : String}
    (h : ∀ u ∈ before, u.IsUsable lookup) (hvalue : lookup v.name = some value)
    (hread : v.kind.read? value = none) (config : Config) :
    (before ++ v :: after).foldlM (readVariable lookup) config =
      .error (.invalidValue v value) := by
  rw [List.foldlM_append, foldlM_readVariable_of_isUsable lookup h]
  show (v :: after).foldlM (readVariable lookup) _ = _
  rw [List.foldlM_cons, readVariable_of_read?_eq_none lookup hvalue hread]
  rfl

theorem exists_first_not_usable (vs : List Variable) : (∀ v ∈ vs, v.IsUsable lookup) ∨
    ∃ before v after value, vs = before ++ v :: after ∧ (∀ u ∈ before, u.IsUsable lookup) ∧
      lookup v.name = some value ∧ v.kind.read? value = none := by
  induction vs with
  | nil => exact .inl fun v hv => absurd hv List.not_mem_nil
  | cons v vs ih =>
    rcases v.isUsable_or lookup with husable | ⟨value, hvalue, hread⟩
    · rcases ih with hall | ⟨before, u, after, value, rfl, hbefore, hu⟩
      · exact .inl (List.forall_mem_cons.mpr ⟨husable, hall⟩)
      · exact .inr ⟨v :: before, u, after, value, rfl,
          List.forall_mem_cons.mpr ⟨husable, hbefore⟩, hu⟩
    · exact .inr ⟨[], v, vs, value, rfl, fun u hu => absurd hu List.not_mem_nil, hvalue, hread⟩

/-! ## Settings afterwards -/

/-- A variable that is applied changes its own setting and nothing else. -/
theorem setting_applied (u v : Variable) (config : Config) :
    u.setting (v.applied lookup config) =
      if u = v then (u.given? lookup).getD (u.setting config) else u.setting config := by
  unfold Variable.applied
  by_cases h : u = v
  · subst h
    rw [if_pos rfl]
    cases u.given? lookup with
    | none => rfl
    | some x => exact Variable.setting_put_self u x config
  · rw [if_neg h]
    cases v.given? lookup with
    | none => rfl
    | some x => exact Variable.setting_put_of_ne h x config

theorem version_applied (v : Variable) (config : Config) :
    (v.applied lookup config).version = config.version := by
  unfold Variable.applied
  cases v.given? lookup with
  | none => rfl
  | some x => exact Variable.version_put v x config

/-- Variables that are applied one after the other change their own settings and nothing else. -/
theorem setting_foldl_applied (u : Variable) (vs : List Variable) (config : Config) :
    u.setting (vs.foldl (fun config v => v.applied lookup config) config) =
      if u ∈ vs then (u.given? lookup).getD (u.setting config) else u.setting config := by
  induction vs generalizing config with
  | nil => rfl
  | cons v vs ih =>
    rw [List.foldl_cons, ih, setting_applied]
    by_cases h : u = v
    · subst h
      rw [if_pos rfl, if_pos List.mem_cons_self]
      cases u.given? lookup <;> simp
    · simp [h]

theorem version_foldl_applied (vs : List Variable) (config : Config) :
    (vs.foldl (fun config v => v.applied lookup config) config).version = config.version := by
  induction vs generalizing config with
  | nil => rfl
  | cons v vs ih => rw [List.foldl_cons, ih, version_applied]

/-! ## What the variables do -/

namespace Variable

variable {lookup}

theorem mem_all (v : Variable) : v ∈ all := by
  cases v <;> decide

theorem IsFollowed.isUsable {v : Variable} {config : Config} (h : v.IsFollowed lookup config) :
    v.IsUsable lookup := by
  intro value hvalue
  unfold IsFollowed at h
  rw [hvalue] at h
  exact ⟨_, h⟩

theorem isFollowed_iff {v : Variable} (h : v.IsUsable lookup) {config : Config} :
    v.IsFollowed lookup config ↔ v.setting config = (v.given? lookup).getD (v.setting {}) := by
  unfold IsFollowed given?
  cases hvalue : lookup v.name with
  | none => exact Iff.rfl
  | some value =>
    obtain ⟨x, hx⟩ := h value hvalue
    rw [← Kind.read?_eq_some_iff] at hx
    simp only [← Kind.read?_eq_some_iff, Option.bind_some, hx, Option.some_inj, Option.getD_some]
    exact eq_comm

/-- A setting that follows the same value is the same. -/
theorem IsFollowed.setting_eq {v : Variable} {config config' : Config} {other : String → Option String}
    (h : v.IsFollowed lookup config) (h' : v.IsFollowed other config')
    (hsame : other v.name = lookup v.name) : v.setting config' = v.setting config := by
  unfold IsFollowed at h h'
  rw [hsame] at h'
  cases hvalue : lookup v.name with
  | none =>
    rw [hvalue] at h h'
    exact h'.trans h.symm
  | some value =>
    rw [hvalue] at h h'
    have hread := Kind.read?_eq_some_iff.mpr h
    exact Option.some.inj ((Kind.read?_eq_some_iff.mpr h').symm.trans hread)

end Variable

theorem ofLookup_of_isUsable (h : ∀ v : Variable, v.IsUsable lookup) : ofLookup lookup =
    .ok (Variable.all.foldl (fun config v => v.applied lookup config) {}) :=
  foldlM_readVariable_of_isUsable lookup (fun v _ => h v) {}

theorem ofLookup_of_first {before after : List Variable} {v : Variable} {value : String}
    (hall : Variable.all = before ++ v :: after) (h : ∀ u ∈ before, u.IsUsable lookup)
    (hvalue : lookup v.name = some value) (hread : v.kind.read? value = none) :
    ofLookup lookup = .error (.invalidValue v value) := by
  unfold ofLookup
  rw [hall]
  exact foldlM_readVariable_of_first lookup h hvalue hread {}

theorem ofLookup_cases : ((∀ v : Variable, v.IsUsable lookup) ∧
      ofLookup lookup = .ok (Variable.all.foldl (fun config v => v.applied lookup config) {})) ∨
    ∃ before v after value, Variable.all = before ++ v :: after ∧
      (∀ u ∈ before, u.IsUsable lookup) ∧ lookup v.name = some value ∧
      v.kind.read? value = none ∧ ofLookup lookup = .error (.invalidValue v value) := by
  rcases exists_first_not_usable lookup Variable.all with
    husable | ⟨before, v, after, value, hall, hbefore, hvalue, hread⟩
  · have hevery := fun v : Variable => husable v v.mem_all
    exact .inl ⟨hevery, ofLookup_of_isUsable lookup hevery⟩
  · exact .inr ⟨before, v, after, value, hall, hbefore, hvalue, hread,
      ofLookup_of_first lookup hall hbefore hvalue hread⟩

/-- The configuration is the one that follows all variables. -/
theorem ofLookup_eq_ok_iff {config : Config} : ofLookup lookup = .ok config ↔
    config.version = ({} : Config).version ∧ ∀ v : Variable, v.IsFollowed lookup config := by
  constructor
  · intro h
    rcases ofLookup_cases lookup with ⟨husable, hok⟩ | ⟨_, _, _, _, _, _, _, _, herror⟩
    · obtain rfl := Except.ok.inj (hok.symm.trans h)
      refine ⟨version_foldl_applied lookup _ _, fun v => ?_⟩
      rw [Variable.isFollowed_iff (husable v), setting_foldl_applied, if_pos v.mem_all]
    · exact absurd (herror.symm.trans h) (by simp)
  · rintro ⟨hversion, hfollowed⟩
    have husable := fun v => (hfollowed v).isUsable
    rw [ofLookup_of_isUsable lookup husable, Except.ok.injEq]
    refine ext_setting ((version_foldl_applied lookup _ _).trans hversion.symm) fun v => ?_
    rw [setting_foldl_applied, if_pos v.mem_all,
      ← (Variable.isFollowed_iff (husable v)).mp (hfollowed v)]

/-- The error is the first variable, in the order of reading, whose value spells no setting. -/
theorem ofLookup_eq_error_iff {v : Variable} {value : String} :
    ofLookup lookup = .error (.invalidValue v value) ↔
      lookup v.name = some value ∧ (¬ ∃ x, v.kind.Spells value x) ∧
        ∃ before after, Variable.all = before ++ v :: after ∧ ∀ u ∈ before, u.IsUsable lookup := by
  constructor
  · intro h
    rcases ofLookup_cases lookup with
      ⟨-, hok⟩ | ⟨before, u, after, value', hall, hbefore, hvalue, hread, herror⟩
    · exact absurd (hok.symm.trans h) (by simp)
    · obtain ⟨rfl, rfl⟩ := Error.invalidValue.inj (Except.error.inj (herror.symm.trans h))
      exact ⟨hvalue, Kind.read?_eq_none_iff.mp hread, before, after, hall, hbefore⟩
  · rintro ⟨hvalue, hspells, before, after, hall, hbefore⟩
    exact ofLookup_of_first lookup hall hbefore hvalue (Kind.read?_eq_none_iff.mpr hspells)

/-- Each variable overrides its own setting. There is a configuration if every variable that is
defined spells a value for its setting; it has these values, and the defaults without them, so that
another value of one variable changes no other setting. Otherwise the error is the first variable
in the list that spells none, with its value as it is. -/
theorem ofLookup_overrides :
    (∀ config : Config,
      Variable.all.map (fun v => (v.name, Setting.mk v.kind (v.setting config))) =
        [("CHAIN_NODE_PORT", ⟨.port, config.nodePort⟩),
          ("CHAIN_NODE_HTTP_INFO_PORT", ⟨.port, config.infoPort⟩),
          ("CHAIN_NODE_HTTP_REST_PORT", ⟨.port, config.restPort⟩),
          ("CHAIN_NODE_HTTP_WS_PORT", ⟨.port, config.webSocketPort⟩),
          ("CHAIN_NODE_HTTP_JSON_PORT", ⟨.port, config.jsonPort⟩),
          ("CHAIN_NODE_HTTP_LOCAL_PORT", ⟨.port, config.localPort⟩),
          ("CHAIN_NODE_LOG", ⟨.level, config.logLevel⟩),
          ("CHAIN_NODE_MAX_INVOCATION_DEPTH", ⟨.size, config.limits.maxInvocationDepth⟩),
          ("CHAIN_NODE_MAX_STACK_SIZE", ⟨.size, config.limits.maxStackSize⟩)]) ∧
      ((∃ config, ofLookup lookup = .ok config) ↔ ∀ v : Variable, v.IsUsable lookup) ∧
      (∀ config, ofLookup lookup = .ok config ↔
        config.version = ({} : Config).version ∧ ∀ v : Variable, v.IsFollowed lookup config) ∧
      (∀ v value, ofLookup lookup = .error (.invalidValue v value) ↔
        lookup v.name = some value ∧ (¬ ∃ x, v.kind.Spells value x) ∧
          ∃ before after, Variable.all = before ++ v :: after ∧
            ∀ u ∈ before, u.IsUsable lookup) ∧
      ∀ (v : Variable) (other : String → Option String) (config config' : Config),
        (∀ u : Variable, u ≠ v → other u.name = lookup u.name) →
        ofLookup lookup = .ok config → ofLookup other = .ok config' →
        config'.version = config.version ∧
          ∀ u : Variable, u ≠ v → u.setting config' = u.setting config := by
  refine ⟨fun _ => rfl, ⟨?_, fun h => ⟨_, ofLookup_of_isUsable lookup h⟩⟩,
    fun _ => ofLookup_eq_ok_iff lookup, fun _ _ => ofLookup_eq_error_iff lookup, ?_⟩
  · rintro ⟨config, h⟩ v
    exact (((ofLookup_eq_ok_iff lookup).mp h).2 v).isUsable
  · intro v other config config' hsame h h'
    obtain ⟨hversion, hfollowed⟩ := (ofLookup_eq_ok_iff lookup).mp h
    obtain ⟨hversion', hfollowed'⟩ := (ofLookup_eq_ok_iff other).mp h'
    exact ⟨hversion'.trans hversion.symm, fun u hu =>
      (hfollowed u).setting_eq (hfollowed' u) (hsame u hu)⟩

end

/-- One port in two ways, the second with blanks, a plus sign and the greatest number. -/
theorem ofLookup_overrides_port :
    let lookup := fun value name => if name = "CHAIN_NODE_HTTP_REST_PORT" then some value else none
    ofLookup (lookup "8080") = .ok { restPort := 8080 } ∧
      ofLookup (lookup "\t+65535 ") = .ok { restPort := 65535 } ∧
      ∀ u : Variable, u ≠ .restPort →
        u.setting { restPort := 65535 } = u.setting { restPort := 8080 } := by
  intro lookup
  have hfirst : ofLookup (lookup "8080") = .ok { restPort := 8080 } := by decide +kernel
  have hsecond : ofLookup (lookup "\t+65535 ") = .ok { restPort := 65535 } := by decide +kernel
  have hsame : ∀ u : Variable, u ≠ .restPort →
      lookup "\t+65535 " u.name = lookup "8080" u.name := by
    intro u hu
    cases u <;> first | rfl | exact absurd rfl hu
  exact ⟨hfirst, hsecond,
    ((ofLookup_overrides (lookup "8080")).2.2.2.2 .restPort _ _ _ hsame hfirst hsecond).2⟩

end Config

end LedgerNode
