import ChainArchive.Settings
import Mathlib.Data.Nat.Digits.Defs
import Mathlib.Data.List.Induction
import Mathlib.Data.List.TakeWhile
import Mathlib.Tactic.Common

/-!
# Overrides are exact

A number is taken from a variable exactly if the text denotes one, however many
zeros it begins with. So a field holds what its own variable says, or its
default, and no other variable has a part in it.
-/

namespace ChainArchive
set_option autoImplicit false

/-! ## Blanks -/

namespace Blank

/-- A text is what is left when it is trimmed, with blanks around it. -/
theorem exists_around_trim (text : List Char) : ∃ before after, text = before ++ trim text ++ after ∧
    (∀ c ∈ before, isBlank c = true) ∧ ∀ c ∈ after, isBlank c = true := by
  refine ⟨text.takeWhile isBlank, ((text.dropWhile isBlank).reverse.takeWhile isBlank).reverse, ?_, ?_, ?_⟩
  · have behind : trim text ++ ((text.dropWhile isBlank).reverse.takeWhile isBlank).reverse = text.dropWhile isBlank := by
      rw [trim, ← List.reverse_append, List.takeWhile_append_dropWhile, List.reverse_reverse]
    rw [List.append_assoc, behind, List.takeWhile_append_dropWhile]
  · intro c member
    exact List.mem_takeWhile_imp member
  · intro c member
    exact List.mem_takeWhile_imp (List.mem_reverse.1 member)

theorem dropWhile_append {before core : List Char} (blank : ∀ c ∈ before, isBlank c = true)
    (visible : ∀ c ∈ core.head?, isBlank c = false) : (before ++ core).dropWhile isBlank = core := by
  rw [List.dropWhile_append_of_pos blank]
  cases core with
  | nil => rfl
  | cons c core => rw [List.dropWhile_cons_of_neg (by simp [visible c rfl])]

/-- Blanks around a text without blanks are trimmed, and no more. -/
theorem trim_append {before core after : List Char} (blank : ∀ c ∈ before ++ after, isBlank c = true)
    (some : core ≠ []) (visible : ∀ c ∈ core, isBlank c = false) : trim (before ++ core ++ after) = core := by
  have first : ∀ c ∈ (core ++ after).head?, isBlank c = false := by
    intro c head
    obtain ⟨first, tail, rfl⟩ := List.exists_cons_of_ne_nil some
    obtain rfl : first = c := Option.some.inj head
    exact visible first (List.mem_cons_self ..)
  have last : ∀ c ∈ core.reverse.head?, isBlank c = false :=
    fun c head => visible c (List.mem_reverse.1 (List.mem_of_mem_head? head))
  have blank' : ∀ c ∈ after.reverse, isBlank c = true :=
    fun c member => blank c (List.mem_append_right _ (List.mem_reverse.1 member))
  rw [trim, List.append_assoc, dropWhile_append (fun c member => blank c (List.mem_append_left _ member)) first,
    List.reverse_append, dropWhile_append blank' last, List.reverse_reverse]

theorem isBlank_of_isDigit {c : Char} (digit : c.isDigit = true) : isBlank c = false := by
  have bounds : 48 ≤ c.toNat ∧ c.toNat ≤ 57 := Char.isDigit_iff_toNat.1 digit
  simp only [isBlank, ranges, List.any_cons, List.any_nil, Bool.or_false, Bool.or_eq_false_iff, Bool.and_eq_false_iff,
    decide_eq_false_iff_not]
  omega

end Blank

namespace Settings

/-! ## Numbers -/

/-- The text denotes the number: decimal digits, any zeros in front, after an optional plus sign, blanks around them
aside. The number has 64 bits. -/
def Denotes (raw : String) (value : Nat) : Prop :=
  ∃ before sign digits after : List Char, raw.toList = before ++ (sign ++ digits) ++ after ∧
    (∀ c ∈ before ++ after, Blank.isBlank c = true) ∧ (sign = [] ∨ sign = ['+']) ∧
    digits ≠ [] ∧ (∀ c ∈ digits, c.isDigit = true) ∧
    value = Nat.ofDigits 10 (digits.reverse.map fun c => c.toNat - 48) ∧ value < 2 ^ 64

theorem foldl_eq_ofDigits (digits : List Char) :
    digits.foldl (fun n c => n * 10 + (c.toNat - 48)) 0 = Nat.ofDigits 10 (digits.reverse.map fun c => c.toNat - 48) := by
  induction digits using List.reverseRecOn with
  | nil => rfl
  | append_singleton digits c ih =>
    rw [List.foldl_append, ih, List.foldl_cons, List.foldl_nil, List.reverse_append, List.reverse_singleton,
      List.singleton_append, List.map_cons, Nat.ofDigits_cons]
    exact (Nat.add_comm _ _).trans (congrArg _ (Nat.mul_comm _ 10))

/-- A plus sign in front is taken off. -/
theorem exists_sign (text : List Char) : ∃ sign digits, text = sign ++ digits ∧ (sign = [] ∨ sign = ['+']) ∧
    (if text.head? = some '+' then text.tail else text) = digits := by
  split
  · next plus =>
    obtain ⟨digits, rfl⟩ := List.head?_eq_some_iff.1 plus
    exact ⟨['+'], digits, rfl, .inr rfl, rfl⟩
  · exact ⟨[], text, rfl, .inl rfl, rfl⟩

theorem digits_of_sign {sign digits : List Char} (plus : sign = [] ∨ sign = ['+']) (all : ∀ c ∈ digits, c.isDigit = true) :
    (if (sign ++ digits).head? = some '+' then (sign ++ digits).tail else sign ++ digits) = digits := by
  rcases plus with rfl | rfl
  · apply if_neg
    intro head
    have digit := all '+' (List.mem_of_mem_head? head)
    revert digit
    decide
  · rfl

theorem number?_eq_some_iff {raw : String} {value : Nat} : number? raw = some value ↔ Denotes raw value := by
  constructor
  · intro number
    obtain ⟨before, after, whole, blankBefore, blankAfter⟩ := Blank.exists_around_trim raw.toList
    obtain ⟨sign, digits, trimmed, plus, unsigned⟩ := exists_sign (Blank.trim raw.toList)
    simp only [number?, unsigned, Option.ite_none_left_eq_some, Option.ite_none_right_eq_some, foldl_eq_ofDigits,
      Bool.or_eq_true, not_or, List.isEmpty_iff, Bool.not_eq_true', Bool.not_eq_false, List.all_eq_true,
      Option.some.injEq] at number
    obtain ⟨⟨some, all⟩, small, rfl⟩ := number
    refine ⟨before, sign, digits, after, trimmed ▸ whole, ?_, plus, some, all, rfl, small⟩
    exact fun c member => (List.mem_append.1 member).elim (blankBefore c) (blankAfter c)
  · rintro ⟨before, sign, digits, after, whole, blank, plus, some, all, rfl, small⟩
    have visible : ∀ c ∈ sign ++ digits, Blank.isBlank c = false := by
      intro c member
      rcases List.mem_append.1 member with inSign | inDigits
      · rcases plus with rfl | rfl
        · cases inSign
        · rw [List.mem_singleton.1 inSign]
          decide
      · exact Blank.isBlank_of_isDigit (all c inDigits)
    have trimmed : Blank.trim raw.toList = sign ++ digits := by
      rw [whole]
      exact Blank.trim_append blank (List.append_ne_nil_of_right_ne_nil sign some) visible
    simp only [number?, trimmed, digits_of_sign plus all, foldl_eq_ofDigits]
    rw [if_neg (by simpa [some] using all)]
    exact if_pos small

/-! ## Fields -/

/-- The fields of the settings. -/
inductive Setting
  | parallelism
  | compressTimeout
  | signTimeout
  | itemTimeout
  | compressors
  | decompressors
  | signers
  | verifiers
  | privateKeyPath
  | publicKeyPath
  | dataDir
  | maxConnections
  | syncWrites
  | requestTimeout

/-- What a field holds. -/
inductive Held
  | count (n : Nat)
  | span (span : Span)
  | path (path : String)
  | switch (on : Bool)

namespace Setting

/-- What the settings hold in a field. -/
def get (s : Settings) : Setting → Held
  | parallelism => .count s.generation.parallelism
  | compressTimeout => .span s.generation.compressTimeout
  | signTimeout => .span s.generation.signTimeout
  | itemTimeout => .span s.generation.itemTimeout
  | compressors => .count s.compression.compressors
  | decompressors => .count s.compression.decompressors
  | signers => .count s.signature.signers
  | verifiers => .count s.signature.verifiers
  | privateKeyPath => .path s.signature.privateKeyPath
  | publicKeyPath => .path s.signature.publicKeyPath
  | dataDir => .path s.store.dataDir
  | maxConnections => .count s.store.maxConnections
  | syncWrites => .switch s.store.syncWrites
  | requestTimeout => .span s.requestTimeout

/-- The variable of a field. The two pools of a service share one, and the kind of writing has none. -/
def name? : Setting → Option String
  | parallelism => "SA_PARALLELISM"
  | compressTimeout => "SA_COMPRESS_TIMEOUT_SECS"
  | signTimeout => "SA_SIGN_TIMEOUT_SECS"
  | itemTimeout => "SA_ITEM_TIMEOUT_SECS"
  | compressors | decompressors => "SA_COMPRESSION_WORKERS"
  | signers | verifiers => "SA_SIGNATURE_WORKERS"
  | privateKeyPath => "SA_PRIVATE_KEY_PATH"
  | publicKeyPath => "SA_PUBLIC_KEY_PATH"
  | dataDir => "SA_DATA_DIR"
  | maxConnections => "SA_STORE_MAX_CONNECTIONS"
  | syncWrites => none
  | requestTimeout => "SA_REQUEST_TIMEOUT_SECS"

/-- The text gives the field this value: a number, a number of seconds, or the path itself. -/
def Gives (raw : String) : Setting → Held → Prop
  | parallelism, held | compressors, held | decompressors, held | signers, held | verifiers, held
  | maxConnections, held => ∃ n, Denotes raw n ∧ held = .count n
  | compressTimeout, held | signTimeout, held | itemTimeout, held
  | requestTimeout, held => ∃ n, Denotes raw n ∧ held = .span (.seconds n)
  | privateKeyPath, held | publicKeyPath, held | dataDir, held => held = .path raw
  | syncWrites, _ => False

/-- The text of the field's variable, if it has one and it is set. -/
def raw? (env : Environment) (setting : Setting) : Option String := setting.name?.bind env

/-- What an environment makes of a field: the value that its variable's text gives, or the default where there is no text
or it gives none. -/
def Settled (env : Environment) (setting : Setting) (held : Held) : Prop :=
  (∃ raw, setting.raw? env = some raw ∧ setting.Gives raw held) ∨
    (∀ raw other, setting.raw? env = some raw → ¬ setting.Gives raw other) ∧ held = setting.get {}

variable {env env' : Environment} {setting : Setting} {name : String}

/-- Settings that agree in every field are the same. -/
theorem settings_ext {s s' : Settings} (same : ∀ setting : Setting, setting.get s = setting.get s') : s = s' := by
  obtain ⟨⟨_, _, _, _⟩, ⟨_, _⟩, ⟨_, _, _, _⟩, ⟨_, _, _⟩, _⟩ := s
  obtain ⟨⟨_, _, _, _⟩, ⟨_, _⟩, ⟨_, _, _, _⟩, ⟨_, _, _⟩, _⟩ := s'
  cases same parallelism
  cases same compressTimeout
  cases same signTimeout
  cases same itemTimeout
  cases same compressors
  cases same decompressors
  cases same signers
  cases same verifiers
  cases same privateKeyPath
  cases same publicKeyPath
  cases same dataDir
  cases same maxConnections
  cases same syncWrites
  cases same requestTimeout
  rfl

/-- A text gives a field one value at most. -/
theorem Gives.unique {raw : String} {held held' : Held} (h : setting.Gives raw held) (h' : setting.Gives raw held') :
    held = held' := by
  have number {n n' : Nat} (first : Denotes raw n) (second : Denotes raw n') : n = n' :=
    Option.some.inj ((number?_eq_some_iff.2 first).symm.trans (number?_eq_some_iff.2 second))
  cases setting with
  | syncWrites => exact h.elim
  | privateKeyPath | publicKeyPath | dataDir => exact Eq.trans h (Eq.symm h')
  | _ =>
    obtain ⟨n, denotes, rfl⟩ := h
    obtain ⟨n', denotes', rfl⟩ := h'
    rw [number denotes denotes']

/-- The value of a field is settled by the text of its own variable. -/
theorem Settled.unique {held held' : Held} (h : setting.Settled env held) (h' : setting.Settled env' held')
    (same : setting.raw? env = setting.raw? env') : held = held' := by
  rcases h with ⟨raw, set, gives⟩ | ⟨nothing, rfl⟩
  · rcases h' with ⟨raw', set', gives'⟩ | ⟨nothing', -⟩
    · obtain rfl : raw = raw' := Option.some.inj ((set.symm.trans same).trans set')
      exact gives.unique gives'
    · exact absurd gives (nothing' raw held (same.symm.trans set))
  · rcases h' with ⟨raw', set', gives'⟩ | ⟨-, rfl⟩
    · exact absurd gives' (nothing raw' held' (same.trans set'))
    · rfl

/-! ## Exactness -/

/-- A variable overrides with the number that its text denotes, if it denotes one. -/
theorem override?_cases (env : Environment) (name : String) :
    (∃ raw n, env name = some raw ∧ Denotes raw n ∧ override? env name = some n) ∨
      (∀ raw n, env name = some raw → ¬ Denotes raw n) ∧ override? env name = none := by
  cases set : env name with
  | none =>
    refine .inr ⟨?_, by rw [override?, set, Option.bind_none]⟩
    intro raw n found
    cases found
  | some raw =>
    have override : override? env name = number? raw := by rw [override?, set, Option.bind_some]
    rw [override]
    cases number : number? raw with
    | some n => exact .inl ⟨raw, n, rfl, number?_eq_some_iff.1 number, rfl⟩
    | none =>
      refine .inr ⟨?_, rfl⟩
      intro other n found denotes
      cases found
      rw [number?_eq_some_iff.2 denotes] at number
      cases number

/-- A field that holds a number in some way, as a count or as so many seconds. -/
theorem settled_number {hold : Nat → Held} {default : Held} (named : setting.name? = some name)
    (initial : setting.get {} = default)
    (gives : ∀ raw held, setting.Gives raw held ↔ ∃ n, Denotes raw n ∧ held = hold n) :
    setting.Settled env ((override? env name).elim default hold) := by
  have value : setting.raw? env = env name := by rw [raw?, named, Option.bind_some]
  rcases override?_cases env name with ⟨raw, n, set, denotes, override⟩ | ⟨nothing, override⟩
  · rw [override]
    exact .inl ⟨raw, value.trans set, (gives raw _).2 ⟨n, denotes, rfl⟩⟩
  · rw [override]
    refine .inr ⟨?_, initial.symm⟩
    intro raw other set given
    obtain ⟨n, denotes, -⟩ := (gives raw other).1 given
    exact nothing raw n (value.symm.trans set) denotes

theorem settled_count {default : Nat} (named : setting.name? = some name) (initial : setting.get {} = .count default)
    (gives : ∀ raw held, setting.Gives raw held ↔ ∃ n, Denotes raw n ∧ held = .count n) :
    setting.Settled env (.count ((override? env name).getD default)) := by
  have settled : setting.Settled env _ := settled_number named initial gives
  cases override : override? env name <;> rwa [override] at settled

theorem settled_span {default : Span} (named : setting.name? = some name) (initial : setting.get {} = .span default)
    (gives : ∀ raw held, setting.Gives raw held ↔ ∃ n, Denotes raw n ∧ held = .span (.seconds n)) :
    setting.Settled env (.span (((override? env name).map Span.seconds).getD default)) := by
  have settled : setting.Settled env _ := settled_number named initial gives
  cases override : override? env name <;> rwa [override] at settled

theorem settled_path {default : String} (named : setting.name? = some name) (initial : setting.get {} = .path default)
    (gives : ∀ raw held, setting.Gives raw held ↔ held = .path raw) :
    setting.Settled env (.path ((env name).getD default)) := by
  have value : setting.raw? env = env name := by rw [raw?, named, Option.bind_some]
  cases set : env name with
  | some raw => exact .inl ⟨raw, value.trans set, (gives raw _).2 rfl⟩
  | none =>
    refine .inr ⟨?_, initial.symm⟩
    intro raw other found
    rw [value, set] at found
    cases found

/-- Every field is settled by the environment. -/
theorem settled_ofEnvironment (env : Environment) (setting : Setting) :
    setting.Settled env (setting.get (ofEnvironment env)) := by
  cases setting with
  | parallelism | compressors | decompressors | signers | verifiers | maxConnections =>
    exact settled_count rfl rfl fun _ _ => Iff.rfl
  | compressTimeout | signTimeout | itemTimeout | requestTimeout => exact settled_span rfl rfl fun _ _ => Iff.rfl
  | privateKeyPath | publicKeyPath | dataDir => exact settled_path rfl rfl fun _ _ => Iff.rfl
  | syncWrites => exact .inr ⟨fun _ _ _ => id, rfl⟩

end Setting

/-- Every field of the settings is exactly what the text of its variable gives, or its default; the two pools of a service
have one size; and an environment that differs in one variable only makes a difference to the fields of that variable
only. The fields are all there is to the settings. -/
theorem overrides_exact_and_independent (env : Environment) :
    (∀ setting : Setting, setting.Settled env (setting.get (ofEnvironment env))) ∧
      (ofEnvironment env).compression.compressors = (ofEnvironment env).compression.decompressors ∧
      (ofEnvironment env).signature.signers = (ofEnvironment env).signature.verifiers ∧
      (∀ (name : String) (env' : Environment), (∀ other, other ≠ name → env' other = env other) →
        ∀ setting : Setting, setting.name? ≠ some name →
          setting.get (ofEnvironment env') = setting.get (ofEnvironment env)) ∧
      ∀ s s' : Settings, (∀ setting : Setting, setting.get s = setting.get s') → s = s' := by
  refine ⟨Setting.settled_ofEnvironment env, rfl, rfl, ?_, fun _ _ => Setting.settings_ext⟩
  intro name env' same setting other
  have text : setting.raw? env' = setting.raw? env := by
    unfold Setting.raw?
    cases named : setting.name? with
    | none => rfl
    | some own => exact same own fun this => other (named.trans (congrArg some this))
  exact (setting.settled_ofEnvironment env').unique (setting.settled_ofEnvironment env) text

/-- A padded number with leading zeros counts. Next to it, a number of 65 bits leaves its own field at the default and the
other field alone. -/
theorem overrides_exact_and_independent_example :
    let padded : Environment := fun name => if name = "SA_PARALLELISM" then some "\u00a0+0004\n" else none
    let beyond : Environment := fun name =>
      if name = "SA_ITEM_TIMEOUT_SECS" then some "18446744073709551616" else padded name
    (∀ other, other ≠ "SA_ITEM_TIMEOUT_SECS" → beyond other = padded other) ∧
      Setting.parallelism.name? ≠ some "SA_ITEM_TIMEOUT_SECS" ∧
      Setting.parallelism.get (ofEnvironment beyond) = Setting.parallelism.get (ofEnvironment padded) ∧
      Setting.parallelism.get (ofEnvironment padded) = .count 4 ∧
      Setting.itemTimeout.get (ofEnvironment beyond) = .span (.seconds 60) := by
  intro padded beyond
  have same : ∀ other, other ≠ "SA_ITEM_TIMEOUT_SECS" → beyond other = padded other := fun _ different => if_neg different
  have elsewhere : Setting.parallelism.name? ≠ some "SA_ITEM_TIMEOUT_SECS" := by decide
  obtain ⟨-, -, -, alone, -⟩ := overrides_exact_and_independent padded
  refine ⟨same, elsewhere, alone _ beyond same _ elsewhere, ?_, ?_⟩
  · have number : number? "\u00a0+0004\n" = some 4 := by decide
    have override : override? padded "SA_PARALLELISM" = some 4 := number
    simp only [Setting.get, ofEnvironment, override, Option.getD_some]
  · have number : number? "18446744073709551616" = none := by decide
    have override : override? beyond "SA_ITEM_TIMEOUT_SECS" = none := number
    simp only [Setting.get, ofEnvironment, override, Option.map_none, Option.getD_none]

end Settings
end ChainArchive
