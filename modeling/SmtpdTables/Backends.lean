import SmtpdTables.Db

namespace SmtpdTables

/-!
# The two backends side by side

Both backends promise one lookup contract: a status, and through `retp` either
`NULL` or a complete record.  Here the outcomes of every lookup path are listed
for both backends, the db backend is compared with the static one on the same
key and value, and the two compare loops are shown to meet the one scan
contract of `firstMatch`.

The comparison is made on values the db backend stores as the daemon's tools
write them: the key and the value each followed by their NUL.  The backends
then agree on the alias, virtual and address services.  On credentials the db
copy of the decoder is handed a length that counts the NUL, so its checks
`len < 3`, `len >= MAX_LINE_SIZE` and `p == line + len - 1` are one byte off;
the agreement holds away from the values those checks then misjudge.
-/

variable {Node Addr : Type}

/-! ## Decoders by service -/

theorem tableStaticDecoder_outcome (E : Env Node Addr) {kind : TableService}
    (handled : kind ≠ .other) (key : CString) (line : List Char) (len : Nat) :
    DecoderOutcome E key line len kind (tableStaticDecoder E kind key line len) := by
  cases kind with
  | kAlias => exact tableStaticAlias_outcome E key line len
  | kVirtual => exact tableStaticVirtual_outcome E key line len
  | kCredentials => exact tableStaticCredentials_outcome E key line len
  | kNetaddr => exact tableStaticNetaddr_outcome E key line len
  | other => exact absurd rfl handled

theorem tableDbDecoder_eq (E : Env Node Addr) {kind : TableService} (handled : kind ≠ .other) :
    tableDbDecoder E kind = tableStaticDecoder E kind := by
  cases kind <;> first | rfl | exact absurd rfl handled

/-- A store holding `alice:s3cret` for `alice`, both written with their NUL. -/
def aliceDb : DB := ⟨[(aliceKey.chars ++ ['\x00'], aliceSecret.chars ++ ['\x00'])]⟩

/-- A presence test, with `retp` equal to `NULL`: the static backend answers 1 for a
key it holds, while the db backend, which never tests `retp`, stores through `NULL`
for every key its store holds when the service is alias, virtual or address. -/
theorem tableDbLookup_presence_faults (E : Env Node Addr) (m : Table) (db : DB) (key : CString)
    {kind : TableService} (storing : kind = .kAlias ∨ kind = .kVirtual ∨ kind = .kNetaddr)
    (short : key.chars.length < E.maxLineSize) {value : List Char}
    (found : db.get (key.chars ++ ['\x00']) = some value)
    (present : ∃ me ∈ m.tContents, me.meKey = key) (strdup : Alloc) :
    tableStaticLookup E m key kind .null strdup = (1, .null) ∧
      tableDbLookup E db key kind .null = .error .nullStore := by
  refine ⟨by simp [tableStaticLookup_null, present], ?_⟩
  have handled : kind ≠ .other := by rcases storing with rfl | rfl | rfl <;> decide
  have notCredentials : kind ≠ .kCredentials := by rcases storing with rfl | rfl | rfl <;> decide
  have stores := (tableStaticDecoder_outcome E handled key value value.length).stored_isSome
    notCredentials
  rw [← tableDbDecoder_eq E handled] at stores
  obtain ⟨stored, decoded⟩ := Option.isSome_iff_exists.mp stores
  simp only [tableDbLookup, tableDbGetEntry, Nat.not_le.mpr short, found, if_false, storeRetp,
    decoded]

theorem tableDbLookup_presence_faults_alice :
    aliceDb.get (aliceKey.chars ++ ['\x00']) = some (aliceSecret.chars ++ ['\x00']) ∧
      tableDbLookup sampleEnv aliceDb aliceKey .kAlias .null = .error .nullStore :=
  ⟨by decide, (tableDbLookup_presence_faults sampleEnv aliceTable aliceDb aliceKey (.inl rfl)
    (by decide) (show aliceDb.get (aliceKey.chars ++ ['\x00']) =
      some (aliceSecret.chars ++ ['\x00']) from by decide) (by decide) .succeeds).2⟩

/-! ## The db backend against the static one -/

/-- Both compare loops meet the scan contract: 1 exactly when `func` accepts some
stored key, with `func` called on the stored keys in order up to and including the
first accepted one and on no later key, or on all of them when none is; the static
keys in list order, the db keys in `seq` order, read as their text.  A function
without state therefore gets the same answer from both backends on the same keys,
whatever their orders. -/
theorem compare_first_match {σ : Type} (func : σ → CString → CString → Bool × σ) (state : σ)
    (m : Table) (db : DB) (key : CString) (kind : TableService) :
    tableStaticCompare func state m key kind =
      compareReference func key state (m.tContents.map Mapel.meKey) ∧
    tableDbCompare func state db key kind =
      compareReference func key state (db.records.map fun record => cstr record.1) ∧
    ∀ accept : CString → CString → Bool,
      (∀ stored, stored ∈ m.tContents.map Mapel.meKey ↔
        stored ∈ db.records.map fun record => cstr record.1) →
      (tableStaticCompare (fun _ key stored => (accept key stored, ())) () m key kind).1 =
        (tableDbCompare (fun _ key stored => (accept key stored, ())) () db key kind).1 := by
  refine ⟨by rw [tableStaticCompare_eq, firstMatch_eq], by rw [tableDbCompare_eq, firstMatch_eq],
    fun accept sameKeys => ?_⟩
  rw [tableStaticCompare_eq, tableDbCompare_eq, firstMatch_pure, firstMatch_pure]
  simp only [sameKeys]

end SmtpdTables
