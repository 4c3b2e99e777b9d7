import SmtpdTables.Static
import Mathlib.Data.Nat.Bitwise

namespace SmtpdTables

/-!
# Hot reload of a static table

`table_static_update` reloads a static table from a new configuration.  It
creates a second table from the configuration, and when that succeeds it gives
the second table the first one's name and id and destroys the first.  The
model keeps the tables of the daemon in a heap indexed by address, so that
"the table at the address a caller holds" can be stated.

The reload replaces the table at the caller's address by a new one at another
address: the name and id move to the new table, and the old address no longer
holds a live table.  A failed configuration leaves every table as it was.  Over
any run of reloads, the tables alive keep their names, ids and sources, and each
holds either the entries it had or exactly those of one configuration of the run.

The reload ends with a `log_info` line that names the table through the local
buffer `name`.  Only the swap writes that buffer: without a configuration, and
when the configuration fails, the line is handed a buffer nothing was written to.

`table_create`, `table_destroy` and the configuration line parser are not in
the modelled files.  The first two are modelled from the spec; the parser is a
parameter of every result, and a small parser following the spec's description
of the format is given for the worked instances.
-/

/-- The tables alive in the daemon, by address.  A new table goes at `next`; the
field keeps every address from `next` on free. -/
structure Heap where
  cells : Nat → Option Table
  next : Nat
  above : ∀ addr, next ≤ addr → cells addr = none

namespace Heap

/-- Place a table at the first free address. -/
def alloc (heap : Heap) (table : Table) : Heap × Nat :=
  ({ cells := Function.update heap.cells heap.next (some table)
     next := heap.next + 1
     above := fun addr beyond => by
       rw [Function.update_noteq (by omega)]
       exact heap.above addr (by omega) }, heap.next)

/-- Release the table at an address. -/
def free (heap : Heap) (addr : Nat) : Heap :=
  { cells := Function.update heap.cells addr none
    next := heap.next
    above := fun other beyond => by
      by_cases same : other = addr
      · subst same
        simp
      · rw [Function.update_noteq same]
        exact heap.above other beyond }

/-- Write through a pointer: change the table at an address, if one is there. -/
def modify (heap : Heap) (addr : Nat) (change : Table → Table) : Heap :=
  { cells := Function.update heap.cells addr ((heap.cells addr).map change)
    next := heap.next
    above := fun other beyond => by
      by_cases same : other = addr
      · subst same
        simp [heap.above other beyond]
      · rw [Function.update_noteq same]
        exact heap.above other beyond }

@[simp] theorem alloc_cells (heap : Heap) (table : Table) :
    (heap.alloc table).1.cells = Function.update heap.cells heap.next (some table) := rfl

@[simp] theorem alloc_addr (heap : Heap) (table : Table) : (heap.alloc table).2 = heap.next := rfl

@[simp] theorem free_cells (heap : Heap) (addr : Nat) :
    (heap.free addr).cells = Function.update heap.cells addr none := rfl

@[simp] theorem modify_cells (heap : Heap) (addr : Nat) (change : Table → Table) :
    (heap.modify addr change).cells =
      Function.update heap.cells addr ((heap.cells addr).map change) := rfl

theorem next_free (heap : Heap) : heap.cells heap.next = none := heap.above _ le_rfl

theorem update_cells_none_eq_some {cells : Nat → Option Table} {addr other : Nat} {t : Table} :
    Function.update cells addr none other = some t ↔ other ≠ addr ∧ cells other = some t := by
  by_cases same : other = addr
  · subst same
    simp
  · simp [Function.update_noteq same, same]

theorem update_cells_some_eq_some {cells : Nat → Option Table} {addr other : Nat} {t t' : Table} :
    Function.update cells addr (some t) other = some t' ↔
      (other = addr ∧ t = t') ∨ (other ≠ addr ∧ cells other = some t') := by
  by_cases same : other = addr
  · subst same
    simp
  · simp [Function.update_noteq same, same]

end Heap

/-- Modelled from the spec: `table_create`, which builds a table of the given source
with no entries at a fresh address.  The name and id it gives a table created
without a name are its arguments here. -/
def tableCreate (heap : Heap) (src name : String) (id : Nat) : Heap × Nat :=
  heap.alloc ⟨name, id, src, []⟩

/-- Modelled from the spec: `table_destroy`, which releases a table and its entries. -/
def tableDestroy (heap : Heap) (addr : Nat) : Heap :=
  heap.free addr

/-- `table_static_config`: a table without configuration is accepted as it is;
otherwise `table_config_parser` appends the entries it parses, or fails. -/
def tableStaticConfig (tableConfigParser : String → Option (List Mapel)) (heap : Heap)
    (table : Nat) (config : Option String) : Option Heap :=
  match config with
  | none => some heap
  | some text =>
    (tableConfigParser text).map fun entries =>
      heap.modify table fun t => { t with tContents := t.tContents ++ entries }

/-- `table->t_id = table->t_id ^ t->t_id; t->t_id = table->t_id ^ t->t_id;
table->t_id = table->t_id ^ t->t_id`, on the two ids as values: the tables are at
different addresses. -/
def xorSwap (first second : Nat) : Nat × Nat :=
  let first := first ^^^ second
  let second := first ^^^ second
  let first := first ^^^ second
  (first, second)

theorem xorSwap_eq (first second : Nat) : xorSwap first second = (second, first) := by
  simp only [xorSwap, Nat.xor_cancel_right, Prod.mk.injEq, and_true]
  rw [Nat.xor_comm, Nat.xor_cancel_left]

/-- What `log_info` was handed: its format, and its string argument, `none` when that
is the `name` buffer before anything was written to it. -/
structure LogLine where
  format : String
  arg : Option String
  deriving DecidableEq, Repr

/-- What `table_static_update` leaves behind: its status, the tables after it, and
the line it logs. -/
structure Updated where
  status : Int
  heap : Heap
  log : LogLine

/-- `table_static_update`.  The replacement is created from the configuration at a
fresh address, under the name and id `table_create` chooses, and configured; on
success the two tables exchange their names, through the buffer `name`, and their
ids, and the table at `table` is destroyed.  `none` is a call on an address that
holds no live table. -/
def tableStaticUpdate (tableConfigParser : String → Option (List Mapel)) (heap : Heap)
    (table : Nat) (config : Option String) (freshName : String) (freshId : Nat) :
    Option Updated :=
  match config with
  | none => some ⟨1, heap, ⟨"info: Table \"%s\" successfully updated", none⟩⟩
  | some text =>
    match heap.cells table with
    | none => none
    | some current =>
      let (created, t) := tableCreate heap current.tSrc freshName freshId
      match tableStaticConfig tableConfigParser created t (some text) with
      | none => some ⟨0, tableDestroy created t, ⟨"info: Failed to update table \"%s\"", none⟩⟩
      | some configured =>
        let name := current.tName
        let ids := xorSwap current.tId freshId
        let renamed := configured.modify table fun tbl => { tbl with tName := freshName, tId := ids.1 }
        let swapped := renamed.modify t fun tbl => { tbl with tName := name, tId := ids.2 }
        some ⟨1, tableDestroy swapped table, ⟨"info: Table \"%s\" successfully updated", some name⟩⟩

/-! ## Sample data for the worked instances -/

/-- Modelled from the spec: a line parser for the worked instances, following the
spec's description of the format `table_config_parser` reads.  Every non-empty line
is a key, whitespace, and a value running to the end of the line; a line without a
value fails the whole configuration. -/
def sampleConfigParser (config : String) : Option (List Mapel) :=
  ((config.data.splitOn '\n').filter (· ≠ [])).mapM fun line =>
    let key := line.takeWhile fun c => !isspace c
    let value := (line.dropWhile fun c => !isspace c).dropWhile isspace
    if key = [] ∨ value = [] then none else some ⟨cstr key, cstr value⟩

/-- A heap holding `aliceTable` alone, at address 0. -/
def aliceHeap : Heap where
  cells := fun addr => if addr = 0 then some aliceTable else none
  next := 1
  above := fun addr beyond => if_neg (by omega)

/-! ## One reload -/

/-- A reload whose configuration parses returns 1 and logs the table's name; the
table at `addr` is gone, and a table with its name, id and source and the parsed
entries is at the next free address. -/
theorem tableStaticUpdate_parsed (tableConfigParser : String → Option (List Mapel))
    (heap : Heap) {addr : Nat} {current : Table} (live : heap.cells addr = some current)
    {text : String} {entries : List Mapel} (parsed : tableConfigParser text = some entries)
    (freshName : String) (freshId : Nat) :
    ∃ after : Updated,
      tableStaticUpdate tableConfigParser heap addr (some text) freshName freshId = some after ∧
        after.status = 1 ∧
        after.log = ⟨"info: Table \"%s\" successfully updated", some current.tName⟩ ∧
        after.heap.cells = Function.update (Function.update heap.cells heap.next
          (some ⟨current.tName, current.tId, current.tSrc, entries⟩)) addr none := by
  have distinct : addr ≠ heap.next := fun same => by simp [same, heap.next_free] at live
  unfold tableStaticUpdate
  simp only [live, tableCreate, Heap.alloc, tableStaticConfig, parsed, Option.map_some']
  refine ⟨_, rfl, rfl, rfl, funext fun other => ?_⟩
  by_cases atAddr : other = addr
  · subst atAddr
    simp [tableDestroy]
  · by_cases atNext : other = heap.next
    · subst atNext
      simp [tableDestroy, distinct.symm, xorSwap_eq]
    · simp [tableDestroy, Function.update_noteq atAddr, Function.update_noteq atNext]

/-- A reload whose configuration does not parse returns 0 and logs the `name` buffer
unwritten; the transient table is destroyed and every address is as before. -/
theorem tableStaticUpdate_unparsed (tableConfigParser : String → Option (List Mapel))
    (heap : Heap) {addr : Nat} {current : Table} (live : heap.cells addr = some current)
    {text : String} (parsed : tableConfigParser text = none) (freshName : String)
    (freshId : Nat) :
    ∃ after : Updated,
      tableStaticUpdate tableConfigParser heap addr (some text) freshName freshId = some after ∧
        after.status = 0 ∧ after.log = ⟨"info: Failed to update table \"%s\"", none⟩ ∧
        after.heap.cells = heap.cells := by
  unfold tableStaticUpdate
  simp only [live, tableCreate, Heap.alloc, tableStaticConfig, parsed, Option.map_none']
  refine ⟨_, rfl, rfl, rfl, funext fun other => ?_⟩
  by_cases atNext : other = heap.next
  · subst atNext
    simp [tableDestroy, heap.next_free]
  · simp [tableDestroy, Function.update_noteq atNext]

/-- Everything a reload that returned can have done: nothing, without a
configuration; a failed configuration; or the replacement. -/
theorem tableStaticUpdate_cases (tableConfigParser : String → Option (List Mapel))
    (heap : Heap) (addr : Nat) (config : Option String) (freshName : String) (freshId : Nat)
    {after : Updated}
    (ran : tableStaticUpdate tableConfigParser heap addr config freshName freshId = some after) :
    (config = none ∧ after = ⟨1, heap, ⟨"info: Table \"%s\" successfully updated", none⟩⟩) ∨
      ∃ text current, config = some text ∧ heap.cells addr = some current ∧
        ((tableConfigParser text = none ∧ after.status = 0 ∧
            after.log = ⟨"info: Failed to update table \"%s\"", none⟩ ∧
            after.heap.cells = heap.cells) ∨
          ∃ entries, tableConfigParser text = some entries ∧ after.status = 1 ∧
            after.log = ⟨"info: Table \"%s\" successfully updated", some current.tName⟩ ∧
            after.heap.cells = Function.update (Function.update heap.cells heap.next
              (some ⟨current.tName, current.tId, current.tSrc, entries⟩)) addr none) := by
  cases config with
  | none => exact .inl ⟨rfl, (Option.some.inj ran).symm⟩
  | some text =>
    cases live : heap.cells addr with
    | none => simp [tableStaticUpdate, live] at ran
    | some current =>
      refine .inr ⟨text, current, rfl, rfl, ?_⟩
      cases parsed : tableConfigParser text with
      | none =>
        obtain ⟨updated, ran', facts⟩ :=
          tableStaticUpdate_unparsed tableConfigParser heap live parsed freshName freshId
        obtain rfl := Option.some.inj (ran.symm.trans ran')
        exact .inl ⟨rfl, facts⟩
      | some entries =>
        obtain ⟨updated, ran', facts⟩ :=
          tableStaticUpdate_parsed tableConfigParser heap live parsed freshName freshId
        obtain rfl := Option.some.inj (ran.symm.trans ran')
        exact .inr ⟨entries, rfl, facts⟩

/-- A reload of a live table returns. -/
theorem tableStaticUpdate_returns (tableConfigParser : String → Option (List Mapel))
    (heap : Heap) {addr : Nat} {current : Table} (live : heap.cells addr = some current)
    (config : Option String) (freshName : String) (freshId : Nat) :
    ∃ after : Updated,
      tableStaticUpdate tableConfigParser heap addr config freshName freshId = some after := by
  cases config with
  | none => exact ⟨_, rfl⟩
  | some text =>
    cases parsed : tableConfigParser text with
    | none =>
      exact (tableStaticUpdate_unparsed tableConfigParser heap live parsed freshName freshId).imp
        fun _ facts => facts.1
    | some entries =>
      exact (tableStaticUpdate_parsed tableConfigParser heap live parsed freshName freshId).imp
        fun _ facts => facts.1

/-- A reload leaves every other live table at its address. -/
theorem tableStaticUpdate_keeps (tableConfigParser : String → Option (List Mapel))
    (heap : Heap) (addr : Nat) (config : Option String) (freshName : String) (freshId : Nat)
    {after : Updated}
    (ran : tableStaticUpdate tableConfigParser heap addr config freshName freshId = some after)
    {other : Nat} (notAddr : other ≠ addr) {t : Table} (found : heap.cells other = some t) :
    after.heap.cells other = some t := by
  rcases tableStaticUpdate_cases tableConfigParser heap addr config freshName freshId ran with
    ⟨-, rfl⟩ | ⟨text, current, -, -, ⟨-, -, -, cells⟩ | ⟨entries, -, -, -, cells⟩⟩
  · exact found
  · rw [cells]
    exact found
  · have notNext : other ≠ heap.next := by rintro rfl; simp [heap.next_free] at found
    rw [cells, Heap.update_cells_none_eq_some, Heap.update_cells_some_eq_some]
    exact ⟨notAddr, .inr ⟨notNext, found⟩⟩

/-- The reload with a configuration the parser accepts returns 1 and destroys the
table at the caller's address.  The new table, at the next free address, has the old
name and id and exactly the entries of the configuration, so it answers every lookup
and comparison as the table that `table_create` and the configuration build; no other
address changes.  A configuration the parser rejects returns 0 and leaves every
address as it was. -/
theorem tableStaticUpdate_replaces {Node Addr : Type} (E : Env Node Addr)
    (tableConfigParser : String → Option (List Mapel)) (heap : Heap) {addr : Nat}
    {current : Table} (live : heap.cells addr = some current) (config freshName : String)
    (freshId : Nat) :
    match tableConfigParser config with
    | some entries =>
      ∃ after : Updated,
        tableStaticUpdate tableConfigParser heap addr (some config) freshName freshId = some after ∧
        after.status = 1 ∧ after.heap.cells addr = none ∧
        after.heap.cells heap.next = some ⟨current.tName, current.tId, current.tSrc, entries⟩ ∧
        (∃ built : Table,
          ((tableStaticConfig tableConfigParser (tableCreate heap current.tSrc freshName freshId).1
              (tableCreate heap current.tSrc freshName freshId).2 (some config)).bind
            fun configured => configured.cells (tableCreate heap current.tSrc freshName freshId).2) =
              some built ∧
          (∀ key kind (retp : Pointer (Pointer (Record Node Addr))) strdup,
            (after.heap.cells heap.next).map (fun t => tableStaticLookup E t key kind retp strdup) =
              some (tableStaticLookup E built key kind retp strdup)) ∧
          ∀ {σ : Type} (func : σ → CString → CString → Bool × σ) state key kind,
            (after.heap.cells heap.next).map (fun t => tableStaticCompare func state t key kind) =
              some (tableStaticCompare func state built key kind)) ∧
        ∀ other, other ≠ addr → other ≠ heap.next → after.heap.cells other = heap.cells other
    | none =>
      ∃ after : Updated,
        tableStaticUpdate tableConfigParser heap addr (some config) freshName freshId = some after ∧
        after.status = 0 ∧ ∀ other, after.heap.cells other = heap.cells other := by
  have distinct : addr ≠ heap.next := fun same => by simp [same, heap.next_free] at live
  cases parsed : tableConfigParser config with
  | none =>
    obtain ⟨after, ran, status, -, cells⟩ :=
      tableStaticUpdate_unparsed tableConfigParser heap live parsed freshName freshId
    exact ⟨after, ran, status, congrFun cells⟩
  | some entries =>
    obtain ⟨after, ran, status, -, cells⟩ :=
      tableStaticUpdate_parsed tableConfigParser heap live parsed freshName freshId
    have placed : after.heap.cells heap.next =
        some ⟨current.tName, current.tId, current.tSrc, entries⟩ := by
      simp [cells, distinct.symm]
    refine ⟨after, ran, status, by simp [cells], placed,
      ⟨⟨freshName, freshId, current.tSrc, entries⟩, by simp [tableStaticConfig, tableCreate, parsed],
        fun _ _ _ _ => by rw [placed]; rfl, fun _ _ _ _ => by rw [placed]; rfl⟩,
      fun other notAddr notNext => ?_⟩
    simp [cells, Function.update_noteq notAddr, Function.update_noteq notNext]

/-- Reloading `aliceTable` from a valid configuration returns 1 and leaves no table at
its address. -/
theorem tableStaticUpdate_frees_address :
    (tableStaticUpdate sampleConfigParser aliceHeap 0 (some "bob bob:pw") "dynamic" 2).map
      (fun result => (result.status, result.heap.cells 0)) = some (1, none) := by
  decide

theorem tableStaticUpdate_replaces_alice :
    aliceHeap.cells 0 = some aliceTable ∧
      ∃ after : Updated,
        tableStaticUpdate sampleConfigParser aliceHeap 0 (some "bob bob:pw") "dynamic" 2 =
          some after ∧ after.status = 1 ∧ after.heap.cells 0 = none := by
  have replaced := tableStaticUpdate_replaces sampleEnv sampleConfigParser aliceHeap
    (show aliceHeap.cells 0 = some aliceTable from rfl) "bob bob:pw" "dynamic" 2
  obtain ⟨after, run, status, gone, -⟩ := replaced
  exact ⟨rfl, after, run, status, gone⟩

/-! ## Runs of reloads -/

/-- A live table known by what identifies it to the daemon: its name, id and
source. -/
def Heap.Holds (heap : Heap) (name : String) (id : Nat) (src : String) : Prop :=
  ∃ addr t, heap.cells addr = some t ∧ t.tName = name ∧ t.tId = id ∧ t.tSrc = src

/-- One reload: the address of the table, its configuration, and the name and id
`table_create` gives the transient table. -/
structure Reload where
  addr : Nat
  config : Option String
  freshName : String
  freshId : Nat

/-- A run of reloads, one after another; `none` when one of them names an address
that holds no live table. -/
def reloadRun (tableConfigParser : String → Option (List Mapel)) :
    Heap → List Reload → Option Heap
  | heap, [] => some heap
  | heap, reload :: rest =>
    match tableStaticUpdate tableConfigParser heap reload.addr reload.config reload.freshName
        reload.freshId with
    | none => none
    | some after => reloadRun tableConfigParser after.heap rest

/-- A relation between the heaps before and after reloads, indexed by their
configurations, that holds with no reload, after every single reload, and composes,
holds across every run of reloads. -/
theorem reloadRun_induction (tableConfigParser : String → Option (List Mapel))
    (Related : List (Option String) → Heap → Heap → Prop)
    (unchanged : ∀ heap, Related [] heap heap)
    (step : ∀ heap (reload : Reload) after,
      tableStaticUpdate tableConfigParser heap reload.addr reload.config reload.freshName
        reload.freshId = some after → Related [reload.config] heap after.heap)
    (compose : ∀ {configs configs' heap heap₁ heap₂}, Related configs heap heap₁ →
      Related configs' heap₁ heap₂ → Related (configs ++ configs') heap heap₂) :
    ∀ {heap after : Heap} {run : List Reload},
      reloadRun tableConfigParser heap run = some after → Related (run.map Reload.config) heap after
  | heap, after, [], ran => by
    cases ran
    exact unchanged heap
  | heap, after, reload :: rest, ran => by
    unfold reloadRun at ran
    cases stepped : tableStaticUpdate tableConfigParser heap reload.addr reload.config
        reload.freshName reload.freshId with
    | none => simp [stepped] at ran
    | some updated =>
      rw [stepped] at ran
      exact compose (step heap reload updated stepped)
        (reloadRun_induction tableConfigParser Related unchanged step compose ran)

/-! ## What a run of reloads leaves in each table -/

/-- A table after reloads configured by `configs`, against the table it comes from: the
same name, id and source, and either the same entries or exactly the entries that one
of the configurations parses to. -/
def ReloadedFrom (tableConfigParser : String → Option (List Mapel)) (configs : List (Option String))
    (before after : Table) : Prop :=
  after.tName = before.tName ∧ after.tId = before.tId ∧ after.tSrc = before.tSrc ∧
    (after.tContents = before.tContents ∨
      ∃ text, some text ∈ configs ∧ tableConfigParser text = some after.tContents)

theorem ReloadedFrom.refl (tableConfigParser : String → Option (List Mapel))
    (configs : List (Option String)) (t : Table) : ReloadedFrom tableConfigParser configs t t :=
  ⟨rfl, rfl, rfl, .inl rfl⟩

theorem ReloadedFrom.trans {tableConfigParser : String → Option (List Mapel)}
    {configs configs' : List (Option String)} {t t₁ t₂ : Table}
    (first : ReloadedFrom tableConfigParser configs t t₁)
    (second : ReloadedFrom tableConfigParser configs' t₁ t₂) :
    ReloadedFrom tableConfigParser (configs ++ configs') t t₂ := by
  obtain ⟨name₁, id₁, src₁, contents₁⟩ := first
  obtain ⟨name₂, id₂, src₂, contents₂⟩ := second
  refine ⟨name₂.trans name₁, id₂.trans id₁, src₂.trans src₁, ?_⟩
  rcases contents₂ with same | ⟨text, listed, parsed⟩
  · rcases contents₁ with same₁ | ⟨text, listed, parsed⟩
    · exact .inl (same.trans same₁)
    · exact .inr ⟨text, List.mem_append_left _ listed, same ▸ parsed⟩
  · exact .inr ⟨text, List.mem_append_right _ listed, parsed⟩

/-- `after` comes from `before` by reloads configured by `configs`: every live table of
`after` is reloaded from a live table of `before`, and every live table of `before`
has a table reloaded from it in `after`. -/
structure Heap.Descends (tableConfigParser : String → Option (List Mapel))
    (configs : List (Option String)) (before after : Heap) : Prop where
  reloaded : ∀ addr' t', after.cells addr' = some t' →
    ∃ addr t, before.cells addr = some t ∧ ReloadedFrom tableConfigParser configs t t'
  kept : ∀ addr t, before.cells addr = some t →
    ∃ addr' t', after.cells addr' = some t' ∧ ReloadedFrom tableConfigParser configs t t'

theorem Heap.Descends.of_cells (tableConfigParser : String → Option (List Mapel))
    (configs : List (Option String)) {before after : Heap} (same : after.cells = before.cells) :
    before.Descends tableConfigParser configs after where
  reloaded addr' t' found := ⟨addr', t', same ▸ found, .refl _ _ _⟩
  kept addr t found := ⟨addr, t, same ▸ found, .refl _ _ _⟩

theorem Heap.Descends.trans {tableConfigParser : String → Option (List Mapel)}
    {configs configs' : List (Option String)} {heap heap₁ heap₂ : Heap}
    (first : heap.Descends tableConfigParser configs heap₁)
    (second : heap₁.Descends tableConfigParser configs' heap₂) :
    heap.Descends tableConfigParser (configs ++ configs') heap₂ where
  reloaded addr₂ t₂ found₂ := by
    obtain ⟨addr₁, t₁, found₁, step₂⟩ := second.reloaded addr₂ t₂ found₂
    obtain ⟨addr, t, found, step₁⟩ := first.reloaded addr₁ t₁ found₁
    exact ⟨addr, t, found, step₁.trans step₂⟩
  kept addr t found := by
    obtain ⟨addr₁, t₁, found₁, step₁⟩ := first.kept addr t found
    obtain ⟨addr₂, t₂, found₂, step₂⟩ := second.kept addr₁ t₁ found₁
    exact ⟨addr₂, t₂, found₂, step₁.trans step₂⟩

/-- One reload: the replacement is reloaded from the table at `addr`, and every other
table stays where it was. -/
theorem tableStaticUpdate_descends (tableConfigParser : String → Option (List Mapel))
    (heap : Heap) (addr : Nat) (config : Option String) (freshName : String) (freshId : Nat)
    {after : Updated}
    (ran : tableStaticUpdate tableConfigParser heap addr config freshName freshId = some after) :
    heap.Descends tableConfigParser [config] after.heap := by
  rcases tableStaticUpdate_cases tableConfigParser heap addr config freshName freshId ran with
    ⟨-, rfl⟩ | ⟨text, current, rfl, live, ⟨-, -, -, cells⟩ | ⟨entries, parsed, -, -, cells⟩⟩
  · exact .of_cells _ _ rfl
  · exact .of_cells _ _ cells
  have distinct : addr ≠ heap.next := fun same => by simp [same, heap.next_free] at live
  have replaced : ReloadedFrom tableConfigParser [some text] current
      ⟨current.tName, current.tId, current.tSrc, entries⟩ :=
    ⟨rfl, rfl, rfl, .inr ⟨text, List.mem_singleton_self _, parsed⟩⟩
  constructor
  · intro other t' found
    rw [cells, Heap.update_cells_none_eq_some, Heap.update_cells_some_eq_some] at found
    rcases found with ⟨-, ⟨-, rfl⟩ | ⟨-, found⟩⟩
    · exact ⟨addr, current, live, replaced⟩
    · exact ⟨other, t', found, .refl _ _ _⟩
  · intro other t found
    by_cases atAddr : other = addr
    · rw [atAddr, live] at found
      cases found
      exact ⟨heap.next, _, by simp [cells, distinct.symm], replaced⟩
    · have atNext : other ≠ heap.next := by rintro rfl; simp [heap.next_free] at found
      refine ⟨other, t, ?_, .refl _ _ _⟩
      rw [cells, Heap.update_cells_none_eq_some, Heap.update_cells_some_eq_some]
      exact ⟨atAddr, .inr ⟨atNext, found⟩⟩

/-- Reloads are atomic over any run: every live table after the run is a live table from
before it with the same name, id and source, holding either its own entries or exactly
the entries of one configuration of the run, never a mix of two and never a transient
table; and no table from before the run is lost. -/
theorem reloadRun_descends (tableConfigParser : String → Option (List Mapel))
    {heap after : Heap} {run : List Reload}
    (ran : reloadRun tableConfigParser heap run = some after) :
    heap.Descends tableConfigParser (run.map Reload.config) after :=
  reloadRun_induction tableConfigParser (Heap.Descends tableConfigParser)
    (fun _ => .of_cells _ _ rfl)
    (fun heap _ _ stepped => tableStaticUpdate_descends tableConfigParser heap _ _ _ _ stepped)
    (fun first second => first.trans second) ran

/-- The two reloads of `aliceTable`: every table afterwards comes from `aliceTable`. -/
theorem reloadRun_descends_alice :
    ∃ after : Heap,
      reloadRun sampleConfigParser aliceHeap
          [⟨0, some "bob bob:pw", "dynamic", 2⟩, ⟨1, some "carol carol:pw", "dynamic", 3⟩] =
        some after ∧
      aliceHeap.Descends sampleConfigParser [some "bob bob:pw", some "carol carol:pw"] after := by
  obtain ⟨after, ran⟩ : ∃ after : Heap, reloadRun sampleConfigParser aliceHeap
      [⟨0, some "bob bob:pw", "dynamic", 2⟩, ⟨1, some "carol carol:pw", "dynamic", 3⟩] =
        some after := ⟨_, rfl⟩
  exact ⟨after, ran, reloadRun_descends sampleConfigParser ran⟩

/-- The tables a run descends to are known under the same names, ids and sources. -/
theorem Heap.Descends.holds {tableConfigParser : String → Option (List Mapel)}
    {configs : List (Option String)} {before after : Heap}
    (descends : before.Descends tableConfigParser configs after) (name : String) (id : Nat)
    (src : String) : after.Holds name id src ↔ before.Holds name id src := by
  constructor
  · rintro ⟨addr', t', found', rfl, rfl, rfl⟩
    obtain ⟨addr, t, found, sameName, sameId, sameSrc, -⟩ := descends.reloaded addr' t' found'
    exact ⟨addr, t, found, sameName.symm, sameId.symm, sameSrc.symm⟩
  · rintro ⟨addr, t, found, rfl, rfl, rfl⟩
    obtain ⟨addr', t', found', sameName, sameId, sameSrc, -⟩ := descends.kept addr t found
    exact ⟨addr', t', found', sameName, sameId, sameSrc⟩

/-- Over any run of reloads, the live tables keep their names, ids and sources: a table
the daemon knows by name or id before the run is still live under them after it. -/
theorem reloadRun_holds (tableConfigParser : String → Option (List Mapel)) :
    ∀ {heap after : Heap} {run : List Reload},
      reloadRun tableConfigParser heap run = some after →
      ∀ name id src, after.Holds name id src ↔ heap.Holds name id src :=
  fun ran => (reloadRun_induction tableConfigParser (Heap.Descends tableConfigParser)
    (fun _ => .of_cells _ _ rfl)
    (fun heap _ _ stepped => tableStaticUpdate_descends tableConfigParser heap _ _ _ _ stepped)
    (fun first second => first.trans second) ran).holds

/-- Two reloads of `aliceTable`, the second at its new address: the table named
`credentials` is still live. -/
theorem reloadRun_holds_alice :
    ∃ after : Heap,
      reloadRun sampleConfigParser aliceHeap
          [⟨0, some "bob bob:pw", "dynamic", 2⟩, ⟨1, some "carol carol:pw", "dynamic", 3⟩] =
        some after ∧ after.Holds "credentials" 1 "static" := by
  obtain ⟨after, ran⟩ : ∃ after : Heap, reloadRun sampleConfigParser aliceHeap
      [⟨0, some "bob bob:pw", "dynamic", 2⟩, ⟨1, some "carol carol:pw", "dynamic", 3⟩] =
        some after := ⟨_, rfl⟩
  exact ⟨after, ran, (reloadRun_holds sampleConfigParser ran "credentials" 1 "static").mpr
    ⟨0, aliceTable, rfl, rfl, rfl, rfl⟩⟩

end SmtpdTables
