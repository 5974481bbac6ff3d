import ChainArchive.Program
import ChainArchive.Proofs.Deployment.Calm
import ChainArchive.Proofs.StatementId

/-!
# When the program prints a statement

The program needs settings that are not refused, a seed, keys and an id that is
not blank. Given these, its deployment starts and its run comes to an end, and
that is a statement exactly if the chain leads from the id to a head. Whatever is
missing ends the program before it has printed anything.
-/

namespace ChainArchive
set_option autoImplicit false

/-! ## Seeds -/

/-- The record that counts for an id: of those that a seed lists under it, the last. -/
def latest (transactions : List Transaction) (id : TransactionId) : Option Transaction :=
  (transactions.filter fun t => t.id == id).getLast?

namespace Store

/-- A store that was filled from a seed has for each id the record that counts. -/
theorem find?_ofList (capacity : Nat) (transactions : List Transaction) :
    (ofList capacity transactions).find? = latest transactions := by
  suffices all : ∀ (s : Store) (id : TransactionId),
      (transactions.foldl insert s).find? id = (latest transactions id).or (s.find? id) by
    funext id
    rw [ofList, all]
    simp [find?]
  induction transactions with
  | nil => exact fun s id => rfl
  | cons t transactions ih =>
    intro s id
    rw [List.foldl_cons, ih, find?_insert]
    by_cases same : t.id = id
    · have : latest (t :: transactions) id = some ((latest transactions id).getD t) := by
        simp [latest, same, List.getLast?_cons]
      rw [this, if_pos same.symm]
      cases latest transactions id <;> rfl
    · have : latest (t :: transactions) id = latest transactions id := by simp [latest, same]
      rw [this, if_neg (Ne.symm same)]

/-- Nothing is archived in it, and no relocation is made to fail. -/
theorem ofList_frame (capacity : Nat) (transactions : List Transaction) :
    (ofList capacity transactions).capacity = capacity ∧ (ofList capacity transactions).archive = [] ∧
      (ofList capacity transactions).failing = [] := by
  suffices all : ∀ s : Store, (transactions.foldl insert s).capacity = s.capacity ∧
      (transactions.foldl insert s).archive = s.archive ∧ (transactions.foldl insert s).failing = s.failing from all _
  induction transactions with
  | nil => exact fun s => ⟨rfl, rfl, rfl⟩
  | cons t transactions ih => exact fun s => ih (s.insert t)

end Store

/-- The records that a seed lists lead from every id to some end. -/
theorem exists_chain (transactions : List Transaction) (id : TransactionId) :
    ∃ chain stop, Chain (latest transactions) [] id chain stop := by
  rw [← Store.find?_ofList 0]
  exact Chain.exists_of_finite (fun _ _ => Store.mem_liveIds) [] id

/-! ## A request -/

/-- A request is answered with what its run comes to. -/
theorem Deployment.trigger_eq {d : Deployment} {statement : StatementId} {raw : String} {last : TransactionId} {r : Run}
    {result : Except GenerationError Receipt} (parsed : TransactionId.parse raw = .ok last) (idle : d.world.runs = [])
    (rest : ((d.say [.requested last]).begin statement last).rest.world.runs = [r]) (answered : r.result? = some result) :
    (d.trigger statement raw).2 = result.mapError .generation := by
  simp only [trigger, parsed, idle, rest, List.length_nil, List.getElem?_cons_zero, Option.bind_some, answered,
    TriggerError.ofRun]

namespace Program

variable {s : Surroundings} {arguments : List String} {last : String} {seed : Option String}

/-- The keys that the settings of an environment name. -/
def keysOf (s : Surroundings) : Except Rsa.KeyError Rsa.KeyPair :=
  let settings := (Settings.ofEnvironment s.environment).signature
  (Rsa.KeyPair.load s.files settings.privateKeyPath settings.publicKeyPath).result

/-- All that is needed for a statement: settings that are not refused, a seed, keys, an id that is not blank, and a chain
of the seed's records that leads from the id to a head. -/
def Provides (s : Surroundings) (last : String) (seed : Option String) : Prop :=
  (Settings.ofEnvironment s.environment).validate = .ok () ∧ ∃ transactions keys id chain,
    (seedOf s.files seed).result = .ok transactions ∧ keysOf s = .ok keys ∧ TransactionId.parse last = .ok id ∧
    Chain (latest transactions) [] id chain .head

/-- The store that the program starts with. -/
def storeOf (s : Surroundings) (transactions : List Transaction) : Store :=
  .ofList (Settings.ofEnvironment s.environment).store.maxConnections transactions

/-- What the program does once it has its seed. -/
theorem generate_eq {transactions : List Transaction} {d : Deployment}
    (valid : (Settings.ofEnvironment s.environment).validate = .ok ())
    (seeded : (seedOf s.files seed).result = .ok transactions)
    (loaded : (Deployment.load (Settings.ofEnvironment s.environment) (storeOf s transactions) s.files).result = .ok d) :
    (generate s last seed).result = ((d.trigger s.statement last).2.mapError .trigger).map (·.statement) := by
  unfold generate
  rw [Attempt.result_bind_of_ok rfl, Attempt.result_bind_of_ok (by rw [Attempt.result_of, valid]; rfl),
    Attempt.result_bind_of_ok (by rw [Attempt.result_mapError, seeded]; rfl), Attempt.result_bind_of_ok rfl,
    Attempt.result_bind_of_ok (by rw [Attempt.result_mapError]; exact congrArg (Except.mapError _) loaded)]
  simp only
  rw [Attempt.result_bind_of_ok rfl]
  cases told : (d.trigger s.statement last).2 with
  | ok receipt => exact Attempt.result_bind_of_ok rfl
  | error cause => exact Attempt.result_bind_of_error rfl

/-- What the program starts with, if it starts. -/
theorem fresh_of_load {transactions : List Transaction} {d : Deployment}
    (loaded : (Deployment.load (Settings.ofEnvironment s.environment) (storeOf s transactions) s.files).result = .ok d) :
    (Settings.ofEnvironment s.environment).validate = .ok () ∧ ∃ keys, keysOf s = .ok keys ∧
      d.Fresh (Settings.ofEnvironment s.environment) (storeOf s transactions) keys := by
  obtain ⟨valid, keys, found, started⟩ := Deployment.load_eq_ok_iff.1 loaded
  obtain ⟨d', started', fresh⟩ := Deployment.exists_start keys valid (Store.ofList_frame _ transactions).1
  obtain rfl : d = d' := Except.ok.inj (started.symm.trans started')
  exact ⟨valid, keys, found, fresh⟩

/-- The keys can sign: their factors are two primes, and the modulus has room for the padding. -/
def Able (s : Surroundings) : Prop := ∀ keys, keysOf s = .ok keys → keys.signing.TwoPrimes ∧ 94 ≤ keys.signing.size

/-- The run of the program comes to what its chain means, in whatever order its tasks act. -/
theorem comes_to_verdict {transactions : List Transaction} {d : Deployment} {id : TransactionId}
    {chain : List Transaction} {stop : ChainEnd} (able : Able s)
    (loaded : (Deployment.load (Settings.ofEnvironment s.environment) (storeOf s transactions) s.files).result = .ok d)
    (whole : Chain (latest transactions) [] id chain stop) :
    let begun := (d.say [.requested id]).begin s.statement id
    (∀ actions d', Path (Restricted Deployment.Calm (Steps Deployment.step)) begun actions d' →
      actions.length ≤ begun.bound ∧ ∃ r, d'.world.runs = [r] ∧
        (r.result? = some (stop.verdict s.statement chain.length) ∨
          r.result? = none ∧ ∃ action d'', d'.Calm action ∧ d'.step action = some d'')) ∧
    ∃ r, begun.rest.world.runs = [r] ∧ r.result? = some (stop.verdict s.statement chain.length) := by
  obtain ⟨valid, keys, found, fresh⟩ := fresh_of_load loaded
  obtain ⟨primes, room⟩ := able keys found
  have signs : Pool.Replies (SignatureService.signHandler keys) := fun _ message =>
    ⟨_, by simp only [SignatureService.signHandler, Rsa.KeyPair.sign, primes.sign_eq_ok room message]; rfl⟩
  obtain ⟨-, archive, failing⟩ := Store.ofList_frame (Settings.ofEnvironment s.environment).store.maxConnections transactions
  have begins : (d.say [.requested id]).Fresh (Settings.ofEnvironment s.environment) (storeOf s transactions) keys :=
    ⟨fresh.settings_eq, fresh.keys_eq, fresh.world, fresh.errands, fresh.compressors, fresh.signers⟩
  refine Deployment.comes_to_verdict begins (Store.keyed_ofList _ _) ?_ ?_ failing signs (by rwa [storeOf, Store.find?_ofList])
  · exact GenerationSettings.positive_of_validate (Settings.validate_eq_ok valid).2
  · simp [Store.archivedFor, storeOf, archive]

/-- The program generates a statement exactly if it is provided with all that is needed, and it is the statement that it
was given the id for. -/
theorem generate_eq_ok_iff (able : Able s) {statement : StatementId} :
    (generate s last seed).result = .ok statement ↔ Provides s last seed ∧ statement = s.statement := by
  -- what comes of an id that is not blank, once the deployment is loaded
  have comes {transactions : List Transaction} {d : Deployment} {id : TransactionId} {chain : List Transaction}
      {stop : ChainEnd} (seeded : (seedOf s.files seed).result = .ok transactions)
      (loaded : (Deployment.load (Settings.ofEnvironment s.environment) (storeOf s transactions) s.files).result = .ok d)
      (parsed : TransactionId.parse last = .ok id) (whole : Chain (latest transactions) [] id chain stop) :
      (generate s last seed).result = (((stop.verdict s.statement chain.length).mapError .generation).mapError
        .trigger).map (·.statement) := by
    obtain ⟨valid, keys, found, fresh⟩ := fresh_of_load loaded
    obtain ⟨-, r, rest, answered⟩ := comes_to_verdict able loaded whole
    rw [generate_eq valid seeded loaded, Deployment.trigger_eq parsed (by rw [fresh.world]) rest answered]
  constructor
  · intro h
    have made := h
    obtain ⟨-, -, made⟩ := Attempt.result_bind_eq_ok made
    obtain ⟨⟨⟩, valid, made⟩ := Attempt.result_bind_eq_ok made
    obtain ⟨transactions, seeded, made⟩ := Attempt.result_bind_eq_ok made
    obtain ⟨-, -, made⟩ := Attempt.result_bind_eq_ok made
    obtain ⟨d, loaded, -⟩ := Attempt.result_bind_eq_ok made
    have seeded := Attempt.result_mapError_eq_ok seeded
    have loaded := Attempt.result_mapError_eq_ok loaded
    obtain ⟨valid, keys, found, -⟩ := fresh_of_load loaded
    cases parsed : TransactionId.parse last with
    | error cause =>
      rw [generate_eq valid seeded loaded] at h
      simp [Deployment.trigger, parsed, Except.mapError, Except.map] at h
    | ok id =>
      obtain ⟨chain, stop, whole⟩ := exists_chain transactions id
      rw [comes seeded loaded parsed whole] at h
      cases stop with
      | head => exact ⟨⟨valid, transactions, keys, id, chain, seeded, found, parsed, whole⟩, by cases h; rfl⟩
      | missing | cycle => cases h
  · rintro ⟨⟨valid, transactions, keys, id, chain, seeded, found, parsed, whole⟩, rfl⟩
    obtain ⟨d, started, -⟩ := Deployment.exists_start keys valid (Store.ofList_frame _ transactions).1
    rw [comes seeded (Deployment.load_eq_ok_iff.2 ⟨valid, keys, found, started⟩) parsed whole]
    rfl

/-- A call for a statement writes it down as a line of its own. -/
theorem run_eq (call : Invocation.parse arguments = .ok (.generate last seed)) :
    (run s arguments).result = (generate s last seed).result.map fun statement => statement.text ++ "\n" := by
  unfold run
  rw [Attempt.result_bind_of_ok (by rw [Attempt.result_of, call]; rfl)]
  simp only
  cases made : (generate s last seed).result with
  | ok statement => exact Attempt.result_bind_of_ok made
  | error cause => exact Attempt.result_bind_of_error made

/-- A call for the statement of a chain, with keys that can sign. The program exits with 0 and prints one line, the
statement id, exactly if it is provided with all that is needed; else it exits with another code and prints nothing. And
this is so in whatever order the tasks, items and workers of its deployment act: after a bounded number of steps the run
is over, and it has a receipt, which names the statement, exactly if all is provided. -/
theorem statement_printed_iff (call : Invocation.parse arguments = .ok (.generate last seed)) (able : Able s) :
    '\n' ∉ s.statement.text.toList ∧
    (Provides s last seed ∧ exitCode (run s arguments) = 0 ∧ output (run s arguments) = s.statement.text ++ "\n" ∨
      ¬ Provides s last seed ∧ exitCode (run s arguments) ≠ 0 ∧ output (run s arguments) = "") ∧
    ∀ transactions d id, (seedOf s.files seed).result = .ok transactions →
      (Deployment.load (Settings.ofEnvironment s.environment) (storeOf s transactions) s.files).result = .ok d →
      TransactionId.parse last = .ok id →
      ∀ actions d', Path (Restricted Deployment.Calm (Steps Deployment.step))
          ((d.say [.requested id]).begin s.statement id) actions d' →
        actions.length ≤ ((d.say [.requested id]).begin s.statement id).bound ∧ ∃ r, d'.world.runs = [r] ∧
          ((∃ result, r.result? = some result ∧ ((∃ receipt, result = .ok receipt) ↔ Provides s last seed) ∧
              ∀ receipt, result = .ok receipt → receipt.statement = s.statement) ∨
            r.result? = none ∧ ∃ action d'', d'.Calm action ∧ d'.step action = some d'') := by
  refine ⟨s.statement.newline_not_mem_text, ?_, fun transactions d id seeded loaded parsed actions d' path => ?_⟩
  · have made {statement : StatementId} : (generate s last seed).result = .ok statement ↔
        Provides s last seed ∧ statement = s.statement := generate_eq_ok_iff able
    have printed := run_eq (s := s) call
    cases ends : (generate s last seed).result with
    | ok statement =>
      obtain ⟨provides, rfl⟩ := made.1 ends
      rw [ends] at printed
      exact .inl ⟨provides, by simp [exitCode, printed, Except.map], by simp [output, printed, Except.map, Except.toOption]⟩
    | error cause =>
      rw [ends] at printed
      refine .inr ⟨fun provides => by simp [made.2 ⟨provides, rfl⟩] at ends, ?_, ?_⟩
      · cases cause <;> simp [exitCode, printed, Except.map, ProgramError.exitCode]
      · simp [output, printed, Except.map, Except.toOption]
  · obtain ⟨chain, stop, whole⟩ := exists_chain transactions id
    obtain ⟨bound, r, single, ends⟩ := (comes_to_verdict able loaded whole).1 actions d' path
    refine ⟨bound, r, single, ends.imp_left fun answered => ⟨_, answered, ⟨?_, ?_⟩, ?_⟩⟩
    · rintro ⟨receipt, success⟩
      obtain ⟨valid, keys, found, -⟩ := fresh_of_load loaded
      cases stop with
      | head => exact ⟨valid, transactions, keys, id, chain, seeded, found, parsed, whole⟩
      | missing | cycle => cases success
    · rintro ⟨-, transactions', -, id', chain', seeded', -, parsed', whole'⟩
      obtain rfl : transactions = transactions' := Except.ok.inj (seeded.symm.trans seeded')
      obtain rfl : id = id' := Except.ok.inj (parsed.symm.trans parsed')
      obtain ⟨rfl, rfl⟩ := whole.unique whole'
      exact ⟨_, rfl⟩
    · rintro receipt success
      cases stop <;> cases success
      rfl

/-! ## An example -/

/-- An element in DER. -/
def derElement (tag : UInt8) (content : Bytes) : Bytes :=
  let n := content.length
  let length := if n < 128 then [UInt8.ofNat n] else UInt8.ofNat (128 + Bytes.width n) :: Bytes.ofNat (Bytes.width n) n
  tag :: length ++ content

/-- A natural number in DER. Where its first bit is set, an octet comes before. -/
def derNatural (n : Nat) : Bytes := derElement Der.Tag.integer (Bytes.ofNat ((n.log2 + 1) / 8 + 1) n)

/-- The file of a private key. -/
def privateKeyFile (key : Rsa.PrivateKey) : Bytes :=
  let numbers := [0, key.modulus, key.exponent, key.secret, key.p, key.q, 1, 1, 1]
  derElement Der.Tag.sequence (derNatural 0 ++ derElement Der.Tag.sequence Rsa.KeyFile.algorithm ++
    derElement Der.Tag.octetString (derElement Der.Tag.sequence (numbers.flatMap derNatural)))

/-- The file of a public key. -/
def publicKeyFile (key : Rsa.PublicKey) : Bytes :=
  derElement Der.Tag.sequence (derElement Der.Tag.sequence Rsa.KeyFile.algorithm ++
    derElement Der.Tag.bitString (0 :: derElement Der.Tag.sequence (derNatural key.modulus ++ derNatural key.exponent)))

/-- An environment without variables, with the key files where they are looked for, and a seed that lists an id twice. Its
first record has a predecessor that is not there. -/
def exampleSurroundings : Surroundings where
  environment := fun _ => none
  files := fun path =>
    if path = "keys/privateKey.der" then .ok (privateKeyFile Rsa.KeyPair.exampleKeys.signing)
    else if path = "keys/publicKey.der" then .ok (publicKeyFile Rsa.KeyPair.exampleKeys.signing.toPublicKey)
    else if path = "seed.json" then .ok (Bytes.ofText
      "[\x7b\"id\":\"C\",\"previous_id\":\"lost\",\"payload\":[1]\x7d,\x7b\"id\":\"C\",\"payload\":[7]\x7d]")
    else .error Files.absent
  statement := World.exampleStatement

theorem keysOf_exampleSurroundings : keysOf exampleSurroundings = .ok Rsa.KeyPair.exampleKeys := by
  have loaded : (keysOf exampleSurroundings).toOption = some Rsa.KeyPair.exampleKeys := by decide +kernel
  cases found : keysOf exampleSurroundings <;> simp_all [Except.toOption]

theorem statement_printed_iff_example :
    Invocation.parse ["C", "--seed", "seed.json"] = .ok (.generate "C" (some "seed.json")) ∧ Able exampleSurroundings ∧
    Provides exampleSurroundings "C" (some "seed.json") ∧
    exitCode (run exampleSurroundings ["C", "--seed", "seed.json"]) = 0 ∧
    output (run exampleSurroundings ["C", "--seed", "seed.json"]) = World.exampleStatement.text ++ "\n" := by
  have call : Invocation.parse ["C", "--seed", "seed.json"] = .ok (.generate "C" (some "seed.json")) := by
    have read : (Invocation.parse ["C", "--seed", "seed.json"]).toOption = some (.generate "C" (some "seed.json")) := by
      decide +kernel
    cases parsed : Invocation.parse ["C", "--seed", "seed.json"] <;> simp_all [Except.toOption]
  have able : Able exampleSurroundings := by
    intro keys found
    obtain rfl : Rsa.KeyPair.exampleKeys = keys := Except.ok.inj (keysOf_exampleSurroundings.symm.trans found)
    exact ⟨Rsa.KeyPair.twoPrimes_exampleKeys, by decide +kernel⟩
  let id : TransactionId := ⟨"C", by decide +kernel⟩
  let lost : TransactionId := ⟨"lost", by decide +kernel⟩
  have seeded : (seedOf exampleSurroundings.files (some "seed.json")).result =
      .ok [⟨id, some lost, [1]⟩, ⟨id, none, [7]⟩] := by
    have read : (seedOf exampleSurroundings.files (some "seed.json")).result.toOption =
        some [⟨id, some lost, [1]⟩, ⟨id, none, [7]⟩] := by decide +kernel
    cases loaded : (seedOf exampleSurroundings.files (some "seed.json")).result <;> simp_all [Except.toOption]
  have provides : Provides exampleSurroundings "C" (some "seed.json") :=
    ⟨by rfl, _, _, id, [⟨id, none, [7]⟩], seeded, keysOf_exampleSurroundings,
      TransactionId.parse_eq_ok_iff.2 rfl, .head (by simp) (by simp [latest, id]) rfl⟩
  have printed := (statement_printed_iff call able).2.1.resolve_right fun none => none.1 provides
  exact ⟨call, able, provides, printed.2⟩

end Program
end ChainArchive
