import SmtpdTables.Static

namespace SmtpdTables

/-!
# The db(3) backend

A db table reads a hashed store that the daemon opens read-only.  The store is
modelled by its records, in the order its `seq` walk yields them; its `get`
returns the value of the record whose key bytes are the query.  The backend
asks the store for the key with its terminating NUL appended, copies the
`dbv.size` bytes of the value, and runs its copy of the static decoders on that
buffer with `len = dbv.size`.  A key of `MAX_LINE_SIZE` bytes or more makes the
process exit; nothing in the backend tests `retp` for `NULL`, so a decoder that
stores a pointer through a `NULL` `retp` faults.

`table_db_config` and `table_db_update` return 1 and touch nothing, and opening
and closing the store are calls into db(3); none of them is modelled.
-/

variable {Node Addr : Type}

/-- The records of a hashed store, in the order `db->seq` with `R_FIRST` then
`R_NEXT` yields them: key bytes and value bytes. -/
structure DB where
  records : List (List Char × List Char)
  deriving DecidableEq

/-- `db->get`: the value of the record whose key bytes are the query. -/
def DB.get (db : DB) (query : List Char) : Option (List Char) :=
  (db.records.find? fun record => record.1 = query).map Prod.snd

/-- How a call ends without returning: `errx` exits the process, and a store through
a `NULL` pointer faults. -/
inductive Exit
  | errx (status : Nat) (message : String)
  | nullStore
  deriving DecidableEq, Repr

/-- `table_db_get_entry`: the key is copied into `pkey[MAX_LINE_SIZE]` and looked up
with its NUL; the value is copied with its `dbv.size`. -/
def tableDbGetEntry (E : Env Node Addr) (db : DB) (key : CString) :
    Except Exit (Option (List Char × Nat)) :=
  if E.maxLineSize ≤ key.chars.length then .error (.errx 1 "table_db_get_entry: key too long")
  else
    match db.get (key.chars ++ ['\x00']) with
    | none => .ok none
    | some value => .ok (some (value, value.length))

/-- The `switch (kind)` of `table_db_lookup`; `ret` starts at 0 and `default` keeps it. -/
def tableDbDecoder (E : Env Node Addr) :
    TableService → CString → List Char → Nat → Decoded Node Addr
  | .kAlias => tableDbAlias E
  | .kCredentials => tableDbCredentials E
  | .kVirtual => tableDbVirtual E
  | .kNetaddr => tableDbNetaddr E
  | .other => fun _ _ _ => ⟨0, none⟩

/-- A decoder's store through `retp`, which faults when `retp` is `NULL`. -/
def storeRetp (retp : Pointer (Pointer (Record Node Addr))) (decoded : Decoded Node Addr) :
    Except Exit (Int × Pointer (Pointer (Record Node Addr))) :=
  match retp, decoded.stored with
  | _, none => .ok (decoded.ret, retp)
  | .null, some _ => .error .nullStore
  | .to _, some stored => .ok (decoded.ret, .to stored)

/-- `table_db_lookup`.  A key the store lacks returns 0 with `*retp` untouched. -/
def tableDbLookup (E : Env Node Addr) (db : DB) (key : CString) (kind : TableService)
    (retp : Pointer (Pointer (Record Node Addr))) :
    Except Exit (Int × Pointer (Pointer (Record Node Addr))) :=
  match tableDbGetEntry E db key with
  | .error exit => .error exit
  | .ok none => .ok (0, retp)
  | .ok (some (line, len)) => storeRetp retp (tableDbDecoder E kind key line len)

/-- The `db->seq` loop of `table_db_compare`.  Each key is duplicated with one byte
past its size and read as a C string; `ret` is set by a nonzero answer and breaks
the loop after the copy is freed. -/
def seqLoop {σ : Type} (func : σ → CString → CString → Bool × σ) (key : CString) :
    Int → σ → List (List Char) → Int × σ
  | ret, state, [] => (ret, state)
  | ret, state, dbk :: rest =>
    let answer := func state key (cstr dbk)
    let ret := if answer.1 then 1 else ret
    if ret ≠ 0 then (ret, answer.2) else seqLoop func key ret answer.2 rest

/-- `table_db_compare`; `kind` is not read. -/
def tableDbCompare {σ : Type} (func : σ → CString → CString → Bool × σ) (state : σ) (db : DB)
    (key : CString) (_kind : TableService) : Int × σ :=
  seqLoop func key 0 state (db.records.map Prod.fst)

theorem seqLoop_eq {σ : Type} (func : σ → CString → CString → Bool × σ) (key : CString) :
    ∀ (state : σ) (keys : List (List Char)),
      seqLoop func key 0 state keys = firstMatch func key state (keys.map cstr)
  | state, [] => rfl
  | state, dbk :: rest => by
    cases accepted : (func state key (cstr dbk)).1 <;>
      simp [seqLoop, firstMatch, accepted, seqLoop_eq func key _ rest]

theorem tableDbCompare_eq {σ : Type} (func : σ → CString → CString → Bool × σ) (state : σ)
    (db : DB) (key : CString) (kind : TableService) :
    tableDbCompare func state db key kind =
      firstMatch func key state (db.records.map fun record => cstr record.1) := by
  rw [tableDbCompare, seqLoop_eq, List.map_map]
  rfl

/-! ## One lemma per path of the lookup -/

end SmtpdTables
