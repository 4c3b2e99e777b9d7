import SmtpdTables.Decoders

namespace SmtpdTables

/-!
# The static backend

A static table keeps its `key value` entries in a `TAILQ`, in the order the
configuration listed them.  A lookup scans the list for the first entry whose
key is the one asked for, duplicates its value and runs the decoder of the
requested service on the copy.  A lookup with `retp` equal to `NULL` only tests
that the key is present.  A comparison asks a caller-supplied function about
every stored key in turn, and stops at the first one it accepts.

The comparison function is C code of the caller's and may keep state, such as a
count of its calls; it is modelled as a function that threads a state of any
type.  The contract of the scan, `firstMatch`, is stated once here and met by
the loops of both backends: the final state is the state after calling the
function on the stored keys up to the first accepted one, and on no later key.
-/

variable {Node Addr : Type}

/-! ## Lookup -/

/-- The `TAILQ_FOREACH` search of `table_static_lookup`: the first entry whose key
is `key` (`strcmp(key, me->me_key) == 0`), `none` when the loop runs off the list. -/
def findEntry (key : CString) : List Mapel → Option Mapel
  | [] => none
  | me :: rest => if key = me.meKey then some me else findEntry key rest

/-- The `switch (kind)` of `table_static_lookup`. -/
def tableStaticDecoder (E : Env Node Addr) :
    TableService → CString → List Char → Nat → Decoded Node Addr
  | .kAlias => tableStaticAlias E
  | .kCredentials => tableStaticCredentials E
  | .kVirtual => tableStaticVirtual E
  | .kNetaddr => tableStaticNetaddr E
  | .other => fun _ _ _ => ⟨-1, none⟩

/-- `table_static_lookup`.  `retp` is `NULL` for a presence test, or the caller's
record pointer, handed back with what the lookup left in it.  `strdup` is how the
copy of the value ends: on `NULL` the lookup returns -1 with `*retp` untouched;
otherwise the decoder runs on the copy, with its `strlen`. -/
def tableStaticLookup (E : Env Node Addr) (m : Table) (key : CString) (kind : TableService)
    (retp : Pointer (Pointer (Record Node Addr))) (strdup : Alloc) :
    Int × Pointer (Pointer (Record Node Addr)) :=
  match retp, findEntry key m.tContents, strdup with
  | .null, me, _ => (if me.isSome then 1 else 0, .null)
  | .to _, none, _ => (0, .to .null)
  | .to prior, some _, .fails => (-1, .to prior)
  | .to prior, some me, .succeeds =>
    let decoded := tableStaticDecoder E kind key me.meVal.chars me.meVal.chars.length
    (decoded.ret, .to (decoded.result prior))

theorem findEntry_eq_find (key : CString) : ∀ entries : List Mapel,
    findEntry key entries = entries.find? fun me => me.meKey = key
  | [] => rfl
  | me :: rest => by
    by_cases same : key = me.meKey
    · simp [findEntry, same]
    · simp [findEntry, same, Ne.symm same, findEntry_eq_find key rest]

/-- A lookup with `retp` set whose copy of the value is made gets the decoder's answer
on the value of the first entry with the key, and 0 with `NULL` when there is none. -/
theorem tableStaticLookup_to (E : Env Node Addr) (m : Table) (key : CString)
    (kind : TableService) (prior : Pointer (Record Node Addr)) :
    tableStaticLookup E m key kind (.to prior) .succeeds =
      match m.tContents.find? fun me => me.meKey = key with
      | none => (0, .to .null)
      | some me =>
        ((tableStaticDecoder E kind key me.meVal.chars me.meVal.chars.length).ret,
          .to ((tableStaticDecoder E kind key me.meVal.chars me.meVal.chars.length).result
            prior)) := by
  unfold tableStaticLookup
  rw [findEntry_eq_find]
  cases m.tContents.find? fun me => me.meKey = key <;> rfl

/-- A presence test, with `retp` equal to `NULL`, answers 1 or 0 without decoding. -/
theorem tableStaticLookup_null (E : Env Node Addr) (m : Table) (key : CString)
    (kind : TableService) (strdup : Alloc) :
    tableStaticLookup E m key kind .null strdup =
      (if ∃ me ∈ m.tContents, me.meKey = key then 1 else 0, .null) := by
  unfold tableStaticLookup
  rw [findEntry_eq_find]
  by_cases present : ∃ me ∈ m.tContents, me.meKey = key
  · have found : (m.tContents.find? fun me => me.meKey = key).isSome := by
      simpa [List.find?_isSome] using present
    simp [found, present]
  · have missing : m.tContents.find? (fun me => me.meKey = key) = none := by
      simpa [List.find?_eq_none] using present
    simp [missing, present]

/-- Static lookup is first-match: the status and record are those of the service's
decoder on the copy of the value of the first entry with the key, whatever later
entries with that key hold; a missing key gives 0 and `NULL`; and a presence test
answers 1 or 0 without copying or decoding. -/
theorem tableStaticLookup_first_match (E : Env Node Addr) (m : Table) (key : CString)
    (kind : TableService) (prior : Pointer (Record Node Addr)) (strdup : Alloc) :
    tableStaticLookup E m key kind (.to prior) .succeeds =
      (match m.tContents.find? fun me => me.meKey = key with
        | none => (0, .to .null)
        | some me =>
          ((tableStaticDecoder E kind key me.meVal.chars me.meVal.chars.length).ret,
            .to ((tableStaticDecoder E kind key me.meVal.chars me.meVal.chars.length).result
              prior))) ∧
    tableStaticLookup E m key kind .null strdup =
      (if ∃ me ∈ m.tContents, me.meKey = key then 1 else 0, .null) :=
  ⟨tableStaticLookup_to E m key kind prior, tableStaticLookup_null E m key kind strdup⟩

/-- A static credential lookup whose copy of the value is made succeeds exactly on
the values that split at their first colon into a non-empty username and password
fitting their fields, with a value shorter than `MAX_LINE_SIZE`; the record holds
that split; every other value gives -1. -/
theorem tableStaticLookup_credentials (E : Env Node Addr) (m : Table) (key s : CString)
    (prior : Pointer (Record Node Addr))
    (first : (m.tContents.find? fun me => me.meKey = key).map Mapel.meVal = some s) :
    ((tableStaticLookup E m key .kCredentials (.to prior) .succeeds).1 = 1 ↔
        ∃ username password, CredentialsSplit E s.chars username password) ∧
      (∀ username password, CredentialsSplit E s.chars username password →
        (tableStaticLookup E m key .kCredentials (.to prior) .succeeds).2 =
          .to (.to (.credentials ⟨username, password⟩))) ∧
      ((tableStaticLookup E m key .kCredentials (.to prior) .succeeds).1 = 1 ∨
        (tableStaticLookup E m key .kCredentials (.to prior) .succeeds).1 = -1) := by
  obtain ⟨me, found, rfl⟩ := Option.map_eq_some'.mp first
  have lookup := tableStaticLookup_to E m key .kCredentials prior
  rw [found] at lookup
  obtain ⟨accepts, record, status⟩ := tableStaticCredentials_value E key me.meVal
  simp only [lookup, tableStaticDecoder]
  refine ⟨accepts, fun username password split => ?_, status⟩
  simp [Decoded.result, record username password split]

/-- The spec's credential example: `alice:s3cret`, the first value for `alice`. -/
theorem tableStaticLookup_credentials_alice :
    (aliceTable.tContents.find? fun me => me.meKey = aliceKey).map Mapel.meVal = some aliceSecret ∧
      ((tableStaticLookup sampleEnv aliceTable aliceKey .kCredentials (.to .null)
          .succeeds).1 = 1 ↔
        ∃ username password, CredentialsSplit sampleEnv aliceSecret.chars username password) :=
  ⟨by decide,
    (tableStaticLookup_credentials sampleEnv aliceTable aliceKey aliceSecret .null (by decide)).1⟩

/-! ## Compare -/

/-- The compare contract: ask `func` about each stored key in order, and stop at the
first one it accepts. -/
def firstMatch {σ : Type} (func : σ → CString → CString → Bool × σ) (key : CString) :
    σ → List CString → Int × σ
  | state, [] => (0, state)
  | state, stored :: rest =>
    let answer := func state key stored
    if answer.1 then (1, answer.2) else firstMatch func key answer.2 rest

/-- Ask `func` about every key of the list, in order: its answers, and its state
after the last call. -/
def callAll {σ : Type} (func : σ → CString → CString → Bool × σ) (key : CString) :
    σ → List CString → List Bool × σ
  | state, [] => ([], state)
  | state, stored :: rest =>
    let answer := func state key stored
    let later := callAll func key answer.2 rest
    (answer.1 :: later.1, later.2)

/-- The compare contract in the spec's words: 1 exactly when `func` accepts some
stored key, and the state after calling `func` on the keys up to and including the
first one accepted, in order, or on all of them when none is.  For a function that
records its calls, that state lists the calls made. -/
def compareReference {σ : Type} (func : σ → CString → CString → Bool × σ) (key : CString)
    (state : σ) (keys : List CString) : Int × σ :=
  match (callAll func key state keys).1.indexOf? true with
  | some index => (1, (callAll func key state (keys.take (index + 1))).2)
  | none => (0, (callAll func key state keys).2)

theorem firstMatch_eq {σ : Type} (func : σ → CString → CString → Bool × σ) (key : CString) :
    ∀ (state : σ) (keys : List CString),
      firstMatch func key state keys = compareReference func key state keys
  | state, [] => rfl
  | state, stored :: rest => by
    simp only [firstMatch, compareReference, callAll, List.indexOf?_cons]
    cases accepted : (func state key stored).1
    · rw [firstMatch_eq func key _ rest, compareReference]
      cases (callAll func key (func state key stored).2 rest).1.indexOf? true <;> rfl
    · rfl

/-- For a function without state, the answer is whether some stored key is accepted. -/
theorem firstMatch_pure (accept : CString → CString → Bool) (key : CString) :
    ∀ keys : List CString,
      (firstMatch (fun _ key stored => (accept key stored, ())) key () keys).1 =
        if ∃ stored ∈ keys, accept key stored then 1 else 0
  | [] => by simp [firstMatch]
  | stored :: rest => by
    cases accepted : accept key stored <;> simp [firstMatch, accepted, firstMatch_pure accept key rest]

/-- The `TAILQ_FOREACH` loop of `table_static_compare`: `continue` on a zero answer,
`ret = 1; break` on the first nonzero one. -/
def compareEntries {σ : Type} (func : σ → CString → CString → Bool × σ) (key : CString) :
    σ → List Mapel → Int × σ
  | state, [] => (0, state)
  | state, me :: rest =>
    let answer := func state key me.meKey
    if answer.1 then (1, answer.2) else compareEntries func key answer.2 rest

/-- `table_static_compare`; `kind` is not read. -/
def tableStaticCompare {σ : Type} (func : σ → CString → CString → Bool × σ) (state : σ)
    (m : Table) (key : CString) (_kind : TableService) : Int × σ :=
  compareEntries func key state m.tContents

theorem tableStaticCompare_eq {σ : Type} (func : σ → CString → CString → Bool × σ) (state : σ)
    (m : Table) (key : CString) (kind : TableService) :
    tableStaticCompare func state m key kind =
      firstMatch func key state (m.tContents.map Mapel.meKey) := by
  rw [tableStaticCompare]
  induction m.tContents generalizing state with
  | nil => rfl
  | cons me rest inductionHypothesis =>
    simp only [compareEntries, firstMatch, List.map_cons, inductionHypothesis]

end SmtpdTables
