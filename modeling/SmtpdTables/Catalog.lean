import SmtpdTables.Update

namespace SmtpdTables

/-!
# Reloads seen by name

The daemon finds a table by its name, and a caller of `table_static_update`
expects the table of that name to hold the new entries afterwards.  At the level
of addresses the reload does not do that in place: the entries go to a new table
and the old one is destroyed (`tableStaticUpdate_replaces`).  At the level of
names it does, and this module proves it.

A catalog maps a name to the live table of that name.  A heap is catalogued by
one when no two of its live tables share a name and the catalog reads them off.
The abstract reload `catalogReload` gives the named table the parsed entries and
keeps its id and source.  A reload of a live table takes a catalogued heap to one
catalogued by the abstract reload of the catalog at the table's name, so over any
run of reloads the names stay distinct and the heap stays catalogued by the abstract
reloads of the names the run acts on, read off the heap as it runs.  Abstract
reloads of different names commute, and so do reloads of two different tables: in
either order they leave the same live tables, at different addresses.

A reload frees one table and places one at a free address; each of the two heap
operations has its lemma on catalogues, and the reload is their composition.
-/

/-- No two live tables share a name. -/
def NamesDistinct (cells : Nat → Option Table) : Prop :=
  ∀ a b ta tb, cells a = some ta → cells b = some tb → ta.tName = tb.tName → a = b

/-- `catalog` reads the live tables of `cells` by name: no two of them share a
name, and a name gives the live table of that name. -/
structure Catalogues (cells : Nat → Option Table) (catalog : String → Option Table) : Prop where
  distinct : NamesDistinct cells
  named : ∀ name t, catalog name = some t ↔ t.tName = name ∧ ∃ addr, cells addr = some t

namespace Catalogues

variable {cells : Nat → Option Table} {catalog : String → Option Table}

theorem live (view : Catalogues cells catalog) {addr : Nat} {t : Table}
    (found : cells addr = some t) : catalog t.tName = some t :=
  (view.named _ _).mpr ⟨rfl, addr, found⟩

/-- Destroying a live table drops its name. -/
theorem free (view : Catalogues cells catalog) {addr : Nat} {t : Table}
    (found : cells addr = some t) :
    Catalogues (Function.update cells addr none) (Function.update catalog t.tName none) where
  distinct a b ta tb atA atB same := by
    rw [Heap.update_cells_none_eq_some] at atA atB
    exact view.distinct a b ta tb atA.2 atB.2 same
  named name t' := by
    simp only [Heap.update_cells_none_eq_some]
    by_cases gone : name = t.tName
    · subst gone
      simp only [Function.update_same, reduceCtorEq, false_iff, not_and, not_exists]
      exact fun named other notAddr atOther =>
        notAddr (view.distinct other addr t' t atOther found named)
    · rw [Function.update_noteq gone, view.named]
      refine and_congr_right fun named =>
        exists_congr fun other => ⟨fun atOther => ⟨?_, atOther⟩, And.right⟩
      rintro rfl
      cases found.symm.trans atOther
      exact gone named.symm

/-- A table placed at a free address, under a name no live table has, is found by
that name. -/
theorem place (view : Catalogues cells catalog) {addr : Nat} {t : Table}
    (empty : cells addr = none) (fresh : catalog t.tName = none) :
    Catalogues (Function.update cells addr (some t))
      (Function.update catalog t.tName (some t)) where
  distinct a b ta tb atA atB same := by
    rw [Heap.update_cells_some_eq_some] at atA atB
    rcases atA with ⟨rfl, rfl⟩ | ⟨-, atA⟩ <;> rcases atB with ⟨rfl, rfl⟩ | ⟨-, atB⟩
    · rfl
    · cases fresh.symm.trans (same ▸ view.live atB)
    · cases fresh.symm.trans (same ▸ view.live atA)
    · exact view.distinct a b ta tb atA atB same
  named name t' := by
    simp only [Heap.update_cells_some_eq_some]
    by_cases placed : name = t.tName
    · subst placed
      rw [Function.update_same]
      constructor
      · rintro ⟨⟩
        exact ⟨rfl, addr, .inl ⟨rfl, rfl⟩⟩
      · rintro ⟨named, other, ⟨-, rfl⟩ | ⟨-, atOther⟩⟩
        · rfl
        · cases fresh.symm.trans (named ▸ view.live atOther)
    · rw [Function.update_noteq placed, view.named]
      refine and_congr_right fun named => ⟨fun ⟨other, atOther⟩ => ⟨other, .inr ⟨?_, atOther⟩⟩, ?_⟩
      · rintro rfl
        cases empty.symm.trans atOther
      · rintro ⟨other, ⟨-, rfl⟩ | ⟨-, atOther⟩⟩
        · exact absurd named.symm placed
        · exact ⟨other, atOther⟩

/-- Two heaps catalogued by one catalog hold the same live tables, at whatever
addresses. -/
theorem same_tables {cells' : Nat → Option Table} (view : Catalogues cells catalog)
    (view' : Catalogues cells' catalog) (t : Table) :
    (∃ addr, cells addr = some t) ↔ ∃ addr, cells' addr = some t :=
  ⟨fun ⟨_, found⟩ => ((view'.named _ _).mp (view.live found)).2,
    fun ⟨_, found⟩ => ((view.named _ _).mp (view'.live found)).2⟩

end Catalogues

/-- The catalog read off a heap: for each name, the first live table of that name in
address order. -/
def Heap.catalog (heap : Heap) (name : String) : Option Table :=
  ((List.range heap.next).filterMap heap.cells).find? fun t => t.tName = name

/-- Every heap whose live tables have distinct names is catalogued by the catalog
read off it. -/
theorem Heap.catalogues_catalog (heap : Heap) (distinct : NamesDistinct heap.cells) :
    Catalogues heap.cells heap.catalog where
  distinct := distinct
  named name t := by
    have listed : ∀ t, t ∈ (List.range heap.next).filterMap heap.cells ↔
        ∃ addr, heap.cells addr = some t :=
      fun t => by
        simp only [List.mem_filterMap, List.mem_range]
        exact ⟨fun ⟨addr, _, found⟩ => ⟨addr, found⟩, fun ⟨addr, found⟩ =>
          ⟨addr, Nat.lt_of_not_le fun beyond => by simp [heap.above addr beyond] at found, found⟩⟩
    constructor
    · intro found
      exact ⟨by simpa using List.find?_some found, (listed t).mp (List.mem_of_find?_eq_some found)⟩
    · rintro ⟨named, addr, atAddr⟩
      cases first : heap.catalog name with
      | none =>
        exact (List.find?_eq_none.mp first t ((listed t).mpr ⟨addr, atAddr⟩)
          (decide_eq_true named)).elim
      | some t' =>
        obtain ⟨addr', atAddr'⟩ := (listed t').mp (List.mem_of_find?_eq_some first)
        have named' : t'.tName = name := by simpa using List.find?_some first
        rw [distinct addr' addr t' t atAddr' atAddr (named'.trans named.symm)] at atAddr'
        exact congrArg some (Option.some.inj (atAddr'.symm.trans atAddr))

/-- What a reload is for, read by name: the table of that name gets the entries its
new configuration parses to in place of its own, and keeps its id and source.
Without a configuration, or when it does not parse, nothing changes. -/
def catalogReload (tableConfigParser : String → Option (List Mapel))
    (catalog : String → Option Table) (name : String) (config : Option String) :
    String → Option Table :=
  match config.bind tableConfigParser with
  | some entries =>
    Function.update catalog name ((catalog name).map fun t => { t with tContents := entries })
  | none => catalog

/-- Abstract reloads one after another, each naming its table. -/
def catalogRun (tableConfigParser : String → Option (List Mapel)) :
    (String → Option Table) → List (String × Option String) → String → Option Table
  | catalog, [] => catalog
  | catalog, (name, config) :: rest =>
    catalogRun tableConfigParser (catalogReload tableConfigParser catalog name config) rest

/-- A reload of a live table acts on the catalog as the abstract reload of the
table's name: a failed configuration changes nothing, and a parsed one replaces the
entries of the table of that name and of no other. -/
theorem tableStaticUpdate_catalogues (tableConfigParser : String → Option (List Mapel))
    {heap : Heap} {catalog : String → Option Table} (view : Catalogues heap.cells catalog)
    {addr : Nat} {current : Table} (live : heap.cells addr = some current)
    (config : Option String) (freshName : String) (freshId : Nat) {after : Updated}
    (ran : tableStaticUpdate tableConfigParser heap addr config freshName freshId = some after) :
    Catalogues after.heap.cells (catalogReload tableConfigParser catalog current.tName config) := by
  have named := view.live live
  rcases tableStaticUpdate_cases tableConfigParser heap addr config freshName freshId ran with
    ⟨rfl, rfl⟩ |
      ⟨text, current', rfl, live', ⟨parsed, -, -, cells⟩ | ⟨entries, parsed, -, -, cells⟩⟩
  · exact view
  · rw [cells]
    simpa [catalogReload, parsed, named] using view
  · obtain rfl := Option.some.inj (live.symm.trans live')
    have distinct : heap.next ≠ addr := fun same => by simp [← same, heap.next_free] at live
    rw [cells, Function.update_comm distinct]
    simp only [catalogReload, Option.some_bind, parsed, named, Option.map_some']
    rw [← @Function.update_idem _ _ (fun _ => Option Table) _ none _ catalog]
    exact (view.free live).place (by rw [Function.update_noteq distinct]; exact heap.next_free)
      (Function.update_same _ _ _)

/-- The names a run of reloads acts on, each read off the table at the reload's address
when the reload runs, with the reload's configuration.  A reload of an address that
holds no table, which returns only without a configuration, names none. -/
def reloadTargets (tableConfigParser : String → Option (List Mapel)) :
    Heap → List Reload → List (String × Option String)
  | _, [] => []
  | heap, reload :: rest =>
    match tableStaticUpdate tableConfigParser heap reload.addr reload.config reload.freshName
        reload.freshId with
    | none => []
    | some after =>
      ((heap.cells reload.addr).map fun t => (t.tName, reload.config)).toList ++
        reloadTargets tableConfigParser after.heap rest

/-- Over any run of reloads, the names of the live tables stay distinct, and the
tables by name are what the abstract reloads of the names the run acts on make of
them, in order: each reload of a live table gives the table of its name the entries
its configuration parses to, or changes nothing when the configuration fails. -/
theorem reloadRun_catalogues (tableConfigParser : String → Option (List Mapel)) :
    ∀ {heap after : Heap} {catalog : String → Option Table} {run : List Reload},
      Catalogues heap.cells catalog → reloadRun tableConfigParser heap run = some after →
      Catalogues after.cells
        (catalogRun tableConfigParser catalog (reloadTargets tableConfigParser heap run))
  | heap, after, catalog, [], view, ran => by
    cases ran
    exact view
  | heap, after, catalog, reload :: rest, view, ran => by
    unfold reloadRun at ran
    cases step : tableStaticUpdate tableConfigParser heap reload.addr reload.config
        reload.freshName reload.freshId with
    | none => simp [step] at ran
    | some updated =>
      rw [step] at ran
      rw [reloadTargets, step]
      cases live : heap.cells reload.addr with
      | some current =>
        exact reloadRun_catalogues tableConfigParser
          (tableStaticUpdate_catalogues tableConfigParser view live _ _ _ step) ran
      | none =>
        rcases tableStaticUpdate_cases tableConfigParser heap _ _ _ _ step with
          ⟨-, rfl⟩ | ⟨_, _, _, live', -⟩
        · exact reloadRun_catalogues tableConfigParser view ran
        · cases live.symm.trans live'

/-- Abstract reloads of two different names commute. -/
theorem catalogReload_comm (tableConfigParser : String → Option (List Mapel))
    (catalog : String → Option Table) {name name' : String} (different : name ≠ name')
    (config config' : Option String) :
    catalogReload tableConfigParser (catalogReload tableConfigParser catalog name config) name'
        config' =
      catalogReload tableConfigParser (catalogReload tableConfigParser catalog name' config') name
        config := by
  cases parsed : config.bind tableConfigParser <;>
    cases parsed' : config'.bind tableConfigParser <;>
    simp [catalogReload, parsed, parsed', Function.update_noteq different,
      Function.update_noteq different.symm, Function.update_comm different]

/-- Reloads of two different tables commute: run in either order, they leave the same
live tables, at different addresses. -/
theorem reloads_commute (tableConfigParser : String → Option (List Mapel)) {heap : Heap}
    (distinct : NamesDistinct heap.cells) {first second : Reload} {t t' : Table}
    (live : heap.cells first.addr = some t) (live' : heap.cells second.addr = some t')
    (different : first.addr ≠ second.addr) :
    ∃ after after' : Heap,
      reloadRun tableConfigParser heap [first, second] = some after ∧
      reloadRun tableConfigParser heap [second, first] = some after' ∧
      ∀ table, (∃ addr, after.cells addr = some table) ↔
        ∃ addr, after'.cells addr = some table := by
  have view := heap.catalogues_catalog distinct
  have names : t'.tName ≠ t.tName := fun same => different (distinct _ _ _ _ live live' same.symm)
  obtain ⟨u, ran⟩ := tableStaticUpdate_returns tableConfigParser heap live first.config
    first.freshName first.freshId
  have kept' := tableStaticUpdate_keeps tableConfigParser heap _ _ _ _ ran different.symm live'
  obtain ⟨v, ran'⟩ := tableStaticUpdate_returns tableConfigParser u.heap kept' second.config
    second.freshName second.freshId
  obtain ⟨u', ranSecond⟩ := tableStaticUpdate_returns tableConfigParser heap live' second.config
    second.freshName second.freshId
  have kept := tableStaticUpdate_keeps tableConfigParser heap _ _ _ _ ranSecond different live
  obtain ⟨v', ranFirst⟩ := tableStaticUpdate_returns tableConfigParser u'.heap kept first.config
    first.freshName first.freshId
  have view₁ := tableStaticUpdate_catalogues tableConfigParser
    (tableStaticUpdate_catalogues tableConfigParser view live _ _ _ ran) kept' _ _ _ ran'
  have view₂ := tableStaticUpdate_catalogues tableConfigParser
    (tableStaticUpdate_catalogues tableConfigParser view live' _ _ _ ranSecond) kept _ _ _ ranFirst
  rw [catalogReload_comm tableConfigParser _ names] at view₂
  exact ⟨v.heap, v'.heap, by simp [reloadRun, ran, ran'], by simp [reloadRun, ranSecond, ranFirst],
    view₁.same_tables view₂⟩

theorem aliceHeap_cells_eq_some {addr : Nat} {t : Table} :
    aliceHeap.cells addr = some t ↔ addr = 0 ∧ t = aliceTable := by
  by_cases zero : addr = 0 <;> simp [aliceHeap, zero, eq_comm]

theorem aliceHeap_catalogues : Catalogues aliceHeap.cells aliceHeap.catalog :=
  aliceHeap.catalogues_catalog fun a b ta tb atA atB _ => by
    rw [aliceHeap_cells_eq_some] at atA atB
    rw [atA.1, atB.1]

theorem reloadRun_catalogues_alice :
    Catalogues aliceHeap.cells aliceHeap.catalog ∧
      ∃ after : Heap,
        reloadRun sampleConfigParser aliceHeap
            [⟨0, some "bob bob:pw", "dynamic", 2⟩, ⟨1, some "carol carol:pw", "dynamic", 3⟩] =
          some after ∧
        reloadTargets sampleConfigParser aliceHeap
            [⟨0, some "bob bob:pw", "dynamic", 2⟩, ⟨1, some "carol carol:pw", "dynamic", 3⟩] =
          [("credentials", some "bob bob:pw"), ("credentials", some "carol carol:pw")] ∧
        Catalogues after.cells (catalogRun sampleConfigParser aliceHeap.catalog
          (reloadTargets sampleConfigParser aliceHeap
            [⟨0, some "bob bob:pw", "dynamic", 2⟩, ⟨1, some "carol carol:pw", "dynamic", 3⟩])) := by
  obtain ⟨after, ran⟩ : ∃ after : Heap, reloadRun sampleConfigParser aliceHeap
      [⟨0, some "bob bob:pw", "dynamic", 2⟩, ⟨1, some "carol carol:pw", "dynamic", 3⟩] =
        some after := ⟨_, rfl⟩
  exact ⟨aliceHeap_catalogues, after, ran, by decide,
    reloadRun_catalogues sampleConfigParser aliceHeap_catalogues ran⟩

/-- `aliceHeap` with a second, empty table, `aliases`, at address 1. -/
def pairHeap : Heap := (aliceHeap.alloc ⟨"aliases", 2, "static", []⟩).1

theorem reloads_commute_pair :
    NamesDistinct pairHeap.cells ∧
      ∃ after after' : Heap,
        reloadRun sampleConfigParser pairHeap
            [⟨0, some "bob bob:pw", "dynamic", 3⟩,
              ⟨1, some "carol carol@example.org", "dynamic", 4⟩] =
          some after ∧
        reloadRun sampleConfigParser pairHeap
            [⟨1, some "carol carol@example.org", "dynamic", 4⟩,
              ⟨0, some "bob bob:pw", "dynamic", 3⟩] =
          some after' ∧
        ∀ table, (∃ addr, after.cells addr = some table) ↔
        ∃ addr, after'.cells addr = some table := by
  have distinct : NamesDistinct pairHeap.cells :=
    (@Catalogues.place _ _ aliceHeap_catalogues 1 ⟨"aliases", 2, "static", []⟩ rfl
      (by decide)).distinct
  exact ⟨distinct, reloads_commute sampleConfigParser distinct
    (show pairHeap.cells 0 = some aliceTable from rfl)
    (show pairHeap.cells 1 = some ⟨"aliases", 2, "static", []⟩ from rfl) (by decide)⟩

end SmtpdTables
