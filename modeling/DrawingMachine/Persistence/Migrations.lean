import DrawingMachine.Persistence.Migrator
import Mathlib.Data.List.Infix

/-!
# The schema is what its migrations make of it

Whatever the processes that open the database do, whichever of them end in the middle and however
their transactions interleave, the ledger holds the migrations that were applied, each once, and
the schema is what these migrations make of the empty one, one after another. A call that returns
has found its whole package in the ledger. When the packages are the releases of one history, the
schema is always that of the history up to one of its migrations, and a call with the whole history
can always bring it to the end.
-/

namespace DrawingMachine

namespace Migrator

variable {σ : Type} {engine : Engine σ} {packages : Nat → List Resource} {appliedAt : Nat → Text}
  {initial : σ} {w w' : World σ}

/-! ### The ledger and its migrations -/

/-- The row is that of the migration. -/
def Row.Of (row : Row) (migration : Migration) : Prop :=
  row.version = migration.version ∧ row.name = migration.name ∧ row.sha256 = migration.sha256

/-- The rows of the ledger, in the order in which they were written. -/
def Database.rows (db : Database σ) : List Row :=
  match db.ledger with
  | none => []
  | some ledger => ledger.rows

/-- The migrations are executed one after another. -/
def replay (engine : Engine σ) (migrations : List Migration) (schema : σ) :
    Except MigrationError σ :=
  migrations.foldlM (fun s migration => executeMigration engine migration s) schema

/-- The migration comes with one of the packages. -/
def Packaged (engine : Engine σ) (packages : Nat → List Resource) (migration : Migration) : Prop :=
  ∃ i migrations, loadMigrations engine (packages i) = .ok migrations ∧ migration ∈ migrations

/-- The ledger has a row of the migration. -/
def Stored (db : Database σ) (migration : Migration) : Prop :=
  ∃ row ∈ db.rows, row.Of migration

/-- The ledger holds the rows of the migrations, in their order, and the schema is what they
make of the initial one. -/
structure Replayed (engine : Engine σ) (initial : σ) (db : Database σ)
    (applied : List Migration) : Prop where
  rows : List.Forall₂ Row.Of db.rows applied
  schema : replay engine applied initial = .ok db.schema

/-- No two rows have the same version. -/
theorem nodup_rows (db : Database σ) : (db.rows.map Row.version).Nodup := by
  unfold Database.rows
  split
  · simp
  · rename_i ledger hledger
    exact ledger.nodup

/-! ### What the transactions do -/

/-- A row passes its check exactly when it is that of the migration, up to its version. -/
theorem verifyAppliedMigration_iff {migration : Migration} {row : Row} :
  verifyAppliedMigration migration row = .ok () ↔
    row.name = migration.name ∧ row.sha256 = migration.sha256
  := by
  simp [verifyAppliedMigration]

/-- A list of checks passes exactly when each of them does. -/
theorem checkAll_iff {α : Type} {check : α → Except MigrationError Unit} {items : List α} :
  checkAll check items = .ok () ↔ ∀ a ∈ items, check a = .ok ()
  := by
  induction items with
  | nil => simp [checkAll]
  | cons a items ih => simp [checkAll, ih]

/-- A row passes its check exactly when it is that of a migration of the package. -/
theorem of_verifyRow {migrations : List Migration} {row : Row}
    (h : verifyRow migrations row = .ok ()) :
  ∃ migration ∈ migrations, row.Of migration
  := by
  unfold verifyRow at h
  split at h
  · cases h
  · rename_i migration hfind
    have hversion := List.find?_some hfind
    rw [decide_eq_true_eq] at hversion
    obtain ⟨hname, hsha⟩ := verifyAppliedMigration_iff.mp h
    exact ⟨migration, List.mem_of_find?_eq_some hfind, hversion.symm, hname, hsha⟩

/-- The greatest version is not less than any, and it is one of them, or there is none. -/
theorem greatestVersion_spec (versions : List Nat) :
  (∀ v ∈ versions, v ≤ greatestVersion versions) ∧
    (greatestVersion versions = 0 ∨ greatestVersion versions ∈ versions)
  := by
  induction versions with
  | nil => simp [greatestVersion]
  | cons v versions ih =>
      obtain ⟨hle, hmem⟩ := ih
      have hcons : greatestVersion (v :: versions) = max v (greatestVersion versions) := rfl
      rw [hcons]
      constructor
      · intro n hn
        rcases List.mem_cons.mp hn with rfl | hn
        · apply Nat.le_max_left
        · apply (hle n hn).trans (Nat.le_max_right _ _)
      · rcases Nat.le_total (greatestVersion versions) v with hmax | hmax
        · right
          rw [Nat.max_eq_left hmax]
          apply List.mem_cons_self
        · rw [Nat.max_eq_right hmax]
          rcases hmem with hzero | hmem
          · left
            exact hzero
          · right
            apply List.mem_cons_of_mem v hmem

/-- What a comparison of the ledger with the package has found. -/
theorem of_verifyMigrationLedger {migrations : List Migration} {requireComplete : Bool}
    {db : Database σ} {version : Nat}
    (h : verifyMigrationLedger migrations requireComplete db = .ok version) :
  (∀ row ∈ db.rows, ∃ migration ∈ migrations, row.Of migration) ∧
    (requireComplete = true → ∀ migration ∈ migrations, ∃ row ∈ db.rows,
      row.version = migration.version) ∧
    (∀ row ∈ db.rows, row.version ≤ version) ∧
    (version = 0 ∨ ∃ row ∈ db.rows, row.version = version)
  := by
  unfold verifyMigrationLedger at h
  split at h
  · cases h
  · rename_i ledger hledger
    have hrows : db.rows = ledger.rows := by rw [Database.rows, hledger]
    have hmem : ∀ row, row ∈ ledger.rows.insertionSort (fun a b => a.version ≤ b.version) ↔
        row ∈ db.rows := by
      intro row
      rw [hrows]
      apply (List.perm_insertionSort _ _).mem_iff
    rw [Except.unit_bind_eq_ok_iff, Except.unit_bind_eq_ok_iff, Except.pure_eq_ok_iff,
      checkAll_iff] at h
    obtain ⟨hverified, hcomplete, rfl⟩ := h
    obtain ⟨hle, hgreatest⟩ := greatestVersion_spec
      ((ledger.rows.insertionSort fun a b => a.version ≤ b.version).map Row.version)
    refine ⟨?_, ?_, ?_, ?_⟩
    · intro row hrow
      apply of_verifyRow (hverified row ((hmem row).mpr hrow))
    · intro hrequired migration hmigration
      rw [requireMigrations, if_pos hrequired, checkAll_iff] at hcomplete
      have hstored := hcomplete migration hmigration
      simp only [requireStored, rejectIf_eq_ok_iff, not_forall, not_not] at hstored
      obtain ⟨row, hrow, hversion⟩ := hstored
      exact ⟨row, (hmem row).mp hrow, hversion⟩
    · intro row hrow
      apply hle
      apply List.mem_map_of_mem ((hmem row).mpr hrow)
    · rcases hgreatest with hzero | hgreatest
      · left
        exact hzero
      · right
        obtain ⟨row, hrow, hversion⟩ := List.mem_map.mp hgreatest
        exact ⟨row, (hmem row).mp hrow, hversion⟩

/-- Reading a file keeps the versions distinct. -/
theorem nodup_of_loadResource {migrations migrations' : List Migration} {resource : Resource}
    (hnodup : (migrations.map Migration.version).Nodup)
    (h : loadResource engine migrations resource = .ok migrations') :
  (migrations'.map Migration.version).Nodup
  := by
  unfold loadResource at h
  split at h
  · obtain rfl := Except.ok.inj h
    exact hnodup
  · split at h
    · split at h
      · cases h
      · obtain rfl := Except.ok.inj h
        exact hnodup
    · split at h
      · cases h
      · split at h
        · cases h
        · rename_i hnew
          obtain rfl := Except.ok.inj h
          rw [List.map_append, List.nodup_append]
          refine ⟨hnodup, List.nodup_singleton _, ?_⟩
          rintro _ hold _ hversion rfl
          obtain ⟨m, hm, rfl⟩ := List.mem_map.mp hold
          apply hnew
          use m, hm
          simpa using hversion

/-- The migrations of a package have distinct versions. -/
theorem nodup_of_load {resources : List Resource} {migrations : List Migration}
    (h : loadMigrations engine resources = .ok migrations) :
  (migrations.map Migration.version).Nodup
  := by
  have hfold : ∀ (resources : List Resource) (before after : List Migration),
      (before.map Migration.version).Nodup →
      resources.foldlM (loadResource engine) before = .ok after →
      (after.map Migration.version).Nodup := by
    intro resources
    induction resources with
    | nil =>
        intro before after hnodup hafter
        obtain rfl : before = after := by simpa using hafter
        exact hnodup
    | cons resource resources ih =>
        intro before after hnodup hafter
        rw [List.foldlM_cons, Except.bind_eq_ok_iff] at hafter
        obtain ⟨middle, hmiddle, hafter⟩ := hafter
        apply ih middle after (nodup_of_loadResource hnodup hmiddle) hafter
  unfold loadMigrations at h
  split at h
  · cases h
  · rename_i loaded hloaded
    obtain rfl := Except.ok.inj h
    have hperm := (List.perm_insertionSort (fun a b => a.version ≤ b.version) loaded).map
      Migration.version
    rw [hperm.nodup_iff]
    apply hfold resources [] loaded List.nodup_nil hloaded

/-- What the transaction of a migration leaves: the database as it is, with the row of the
migration, or the new schema with a new row. -/
theorem of_applyMigration {migration : Migration} {time : Text} {db db' : Database σ}
    (h : applyMigration engine migration time db = .ok db') :
  db' = db ∧ Stored db migration ∨
    db'.rows = db.rows ++ [migration.row time] ∧
      (∀ row ∈ db.rows, row.version ≠ migration.version) ∧
      executeMigration engine migration db.schema = .ok db'.schema
  := by
  unfold applyMigration at h
  split at h
  · cases h
  · rename_i ledger hledger
    have hrows : db.rows = ledger.rows := by rw [Database.rows, hledger]
    split at h
    · rename_i row hrow
      left
      rw [Except.unit_bind_eq_ok_iff, verifyAppliedMigration_iff, Except.pure_eq_ok_iff] at h
      obtain ⟨⟨hname, hsha⟩, rfl⟩ := h
      obtain ⟨hmem, hversion⟩ := Table.get?_eq_some_iff.mp hrow
      refine ⟨rfl, row, ?_, hversion, hname, hsha⟩
      rw [hrows]
      exact hmem
    · split at h
      · cases h
      · rename_i schema hschema
        split at h
        · cases h
        · split at h
          · cases h
          · rename_i ledger' hinsert
            right
            obtain rfl := Except.ok.inj h
            obtain ⟨hnew, hrows'⟩ := Table.insert?_eq_some_iff.mp hinsert
            rw [hrows]
            exact ⟨hrows', hnew, hschema⟩

/-! ### The invariant of the runs -/

/-- The rows of the ledger stay, and others come after them. -/
def Extends (db db' : Database σ) : Prop := db.rows <+: db'.rows

/-- What is stored stays. -/
theorem Stored.extend {db db' : Database σ} {migration : Migration} (h : Stored db migration)
    (hextends : Extends db db') :
  Stored db' migration
  := by
  obtain ⟨row, hrow, hof⟩ := h
  exact ⟨row, hextends.subset hrow, hof⟩

/-- What is true of a call, by where it is: the migrations that it has applied are stored, and a
call that has returned has found its whole package. -/
def Holds (engine : Engine σ) (resources : List Resource) (db : Database σ) : Process → Prop
  | .verifying migrations => loadMigrations engine resources = .ok migrations
  | .applying migrations rest => loadMigrations engine resources = .ok migrations ∧
      ∃ done, migrations = done ++ rest ∧ ∀ migration ∈ done, Stored db migration
  | .returned version => ∃ migrations, loadMigrations engine resources = .ok migrations ∧
      (∀ migration ∈ migrations, Stored db migration ∧ migration.version ≤ version) ∧
      (version = 0 ∨ ∃ migration ∈ migrations, migration.version = version)
  | _ => True

/-- What is true of a call stays true. -/
theorem Holds.extend {resources : List Resource} {db db' : Database σ} {p : Process}
    (h : Holds engine resources db p) (hextends : Extends db db') :
  Holds engine resources db' p
  := by
  cases p with
  | applying migrations rest =>
      obtain ⟨hload, done, hdone, hstored⟩ := h
      refine ⟨hload, done, hdone, ?_⟩
      intro migration hmigration
      apply (hstored migration hmigration).extend hextends
  | returned version =>
      obtain ⟨migrations, hload, hstored, hversion⟩ := h
      refine ⟨migrations, hload, ?_, hversion⟩
      intro migration hmigration
      obtain ⟨hmem, hle⟩ := hstored migration hmigration
      exact ⟨hmem.extend hextends, hle⟩
  | _ => exact h

/-- A migration of the package whose version is stored is stored itself, when the rows are those
of the package. -/
theorem stored_of_version {migrations : List Migration} {db : Database σ}
    (hnodup : (migrations.map Migration.version).Nodup)
    (hrows : ∀ row ∈ db.rows, ∃ migration ∈ migrations, row.Of migration) {migration : Migration}
    (hmigration : migration ∈ migrations)
    (hstored : ∃ row ∈ db.rows, row.version = migration.version) :
  Stored db migration
  := by
  obtain ⟨row, hrow, hversion⟩ := hstored
  obtain ⟨migration', hmigration', hof⟩ := hrows row hrow
  obtain rfl : migration' = migration :=
    List.inj_on_of_nodup_map hnodup hmigration' hmigration (hof.1.symm.trans hversion)
  exact ⟨row, hrow, hof⟩

/-- A call that finds its package complete. -/
theorem holds_returned {resources : List Resource} {migrations : List Migration}
    {db : Database σ} {version : Nat} (hload : loadMigrations engine resources = .ok migrations)
    (hverify : verifyMigrationLedger migrations true db = .ok version) :
  Holds engine resources db (.returned version)
  := by
  obtain ⟨hrows, hcomplete, hle, hversion⟩ := of_verifyMigrationLedger hverify
  refine ⟨migrations, hload, ?_, ?_⟩
  · intro migration hmigration
    have hstored := hcomplete rfl migration hmigration
    use stored_of_version (nodup_of_load hload) hrows hmigration hstored
    obtain ⟨row, hrow, heq⟩ := hstored
    rw [← heq]
    apply hle row hrow
  · rcases hversion with hzero | ⟨row, hrow, heq⟩
    · left
      exact hzero
    · right
      obtain ⟨migration, hmigration, hof⟩ := hrows row hrow
      exact ⟨migration, hmigration, hof.1.symm.trans heq⟩

/-- The migrations that were applied are packaged, and what is true of every call holds. -/
structure Sound (engine : Engine σ) (packages : Nat → List Resource) (initial : σ)
    (applied : List Migration) (w : World σ) : Prop where
  replayed : Replayed engine initial w.db applied
  packaged : ∀ migration ∈ applied, Packaged engine packages migration
  calls : ∀ i, Holds engine (packages i) w.db (w.processes i)

/-- A call goes on, and the database stays as it is. -/
theorem Sound.goto {applied : List Migration} (hs : Sound engine packages initial applied w)
    {i : Nat} {p : Process} (hp : Holds engine (packages i) w.db p) :
  Sound engine packages initial applied (w.goto i p)
  := by
  refine ⟨hs.replayed, hs.packaged, ?_⟩
  intro j
  by_cases heq : j = i
  · subst heq
    simpa [World.goto] using hp
  · simpa [World.goto, heq] using hs.calls j

/-- A call goes on with a database that has other rows after those that it had. -/
theorem Sound.extend {applied applied' : List Migration}
    (hs : Sound engine packages initial applied w) {i : Nat} {p : Process} {db : Database σ}
    (hextends : Extends w.db db) (hreplayed : Replayed engine initial db applied')
    (hpackaged : ∀ migration ∈ applied', Packaged engine packages migration)
    (hp : Holds engine (packages i) db p) :
  Sound engine packages initial applied' { w.goto i p with db := db }
  := by
  refine ⟨hreplayed, hpackaged, ?_⟩
  intro j
  by_cases heq : j = i
  · subst heq
    simpa [World.goto] using hp
  · simpa [World.goto, heq] using (hs.calls j).extend hextends

/-- The rows and the schema of a database whose ledger was created. -/
theorem bootstrapLedger_spec (db : Database σ) :
  (bootstrapLedger db).rows = db.rows ∧ (bootstrapLedger db).schema = db.schema
  := by
  unfold bootstrapLedger
  split
  · rename_i hledger
    simp [Database.rows, hledger, Table.empty]
  · exact ⟨rfl, rfl⟩

/-- The rows have the versions of the migrations. -/
theorem versions_of_rows {rows : List Row} {applied : List Migration}
    (h : List.Forall₂ Row.Of rows applied) :
  rows.map Row.version = applied.map Migration.version
  := by
  induction h with
  | nil => rfl
  | cons hof _ ih => rw [List.map_cons, List.map_cons, hof.1, ih]

/-- No two of the migrations have the same version. -/
theorem Replayed.nodup {applied : List Migration} {db : Database σ}
    (h : Replayed engine initial db applied) :
  (applied.map Migration.version).Nodup
  := by
  rw [← versions_of_rows h.rows]
  apply nodup_rows

/-- Each migration has its row. -/
theorem exists_row {rows : List Row} {applied : List Migration}
    (h : List.Forall₂ Row.Of rows applied) {migration : Migration}
    (hmigration : migration ∈ applied) :
  ∃ row ∈ rows, row.Of migration
  := by
  induction h with
  | nil => cases hmigration
  | @cons row m rows applied hof _ ih =>
      rcases List.mem_cons.mp hmigration with rfl | hmigration
      · exact ⟨row, List.mem_cons_self, hof⟩
      · obtain ⟨row', hrow', hof'⟩ := ih hmigration
        exact ⟨row', List.mem_cons_of_mem row hrow', hof'⟩

/-- Each row is that of a migration. -/
theorem exists_migration {rows : List Row} {applied : List Migration}
    (h : List.Forall₂ Row.Of rows applied) {row : Row} (hrow : row ∈ rows) :
  ∃ migration ∈ applied, row.Of migration
  := by
  induction h with
  | nil => cases hrow
  | @cons row' m rows applied hof _ ih =>
      rcases List.mem_cons.mp hrow with rfl | hrow
      · exact ⟨m, List.mem_cons_self, hof⟩
      · obtain ⟨m', hm', hof'⟩ := ih hrow
        exact ⟨m', List.mem_cons_of_mem m hm', hof'⟩

/-- A migration is stored when it was applied. -/
theorem Replayed.stored {applied : List Migration} {db : Database σ}
    (h : Replayed engine initial db applied) {migration : Migration}
    (hmigration : migration ∈ applied) :
  Stored db migration
  := by
  exact exists_row h.rows hmigration

/-- One more migration is executed. -/
theorem Replayed.snoc {applied : List Migration} {db db' : Database σ} {migration : Migration}
    {row : Row} (h : Replayed engine initial db applied) (hrows : db'.rows = db.rows ++ [row])
    (hof : row.Of migration)
    (hschema : executeMigration engine migration db.schema = .ok db'.schema) :
  Replayed engine initial db' (applied ++ [migration])
  := by
  constructor
  · rw [hrows]
    apply List.rel_append h.rows
    apply List.Forall₂.cons hof List.Forall₂.nil
  · rw [replay, List.foldlM_append, Except.bind_eq_ok_iff]
    use db.schema, h.schema
    rw [List.foldlM_cons, Except.bind_eq_ok_iff]
    use db'.schema, hschema
    rfl

/-- What a step makes of the migrations that were applied: they stay, or the migration at which
a call is comes after them. -/
theorem Sound.step {applied : List Migration} (hs : Sound engine packages initial applied w)
    (h : Step engine packages appliedAt w w') :
  Sound engine packages initial applied w' ∨
    ∃ i migration migrations rest, w.processes i = .applying migrations (migration :: rest) ∧
      (∀ row ∈ w.db.rows, row.version ≠ migration.version) ∧
      Sound engine packages initial (applied ++ [migration]) w'
  := by
  cases h with
  | bootstrap i h =>
      left
      obtain ⟨hrows, hschema⟩ := bootstrapLedger_spec w.db
      refine hs.extend ?_ ⟨?_, ?_⟩ hs.packaged trivial
      · rw [Extends, hrows]
      · rw [hrows]
        exact hs.replayed.rows
      · rw [hschema]
        exact hs.replayed.schema
  | load i migrations h hload =>
      left
      exact hs.goto hload
  | verify i version migrations h hverify =>
      left
      have hload := hs.calls i
      rw [h] at hload
      refine hs.goto ⟨hload, [], rfl, ?_⟩
      nofun
  | complete i version migrations h hverify =>
      left
      have hload := hs.calls i
      rw [h] at hload
      exact hs.goto (holds_returned hload.1 hverify)
  | apply i migration migrations rest db h happly =>
      have hcall := hs.calls i
      rw [h] at hcall
      obtain ⟨hload, done, hdone, hstored⟩ := hcall
      rcases of_applyMigration happly with ⟨rfl, hmigration⟩ | ⟨hrows, hnew, hschema⟩
      · left
        refine hs.goto ⟨hload, done ++ [migration], by simp [hdone], ?_⟩
        intro m hm
        rcases List.mem_append.mp hm with hm | hm
        · apply hstored m hm
        · obtain rfl := List.mem_singleton.mp hm
          exact hmigration
      · right
        have hof : (migration.row (appliedAt i)).Of migration := ⟨rfl, rfl, rfl⟩
        have hextends : Extends w.db db := by
          rw [Extends, hrows]
          apply List.prefix_append
        refine ⟨i, migration, migrations, rest, h, hnew, ?_⟩
        refine hs.extend hextends (hs.replayed.snoc hrows hof hschema) ?_ ?_
        · intro m hm
          rcases List.mem_append.mp hm with hm | hm
          · apply hs.packaged m hm
          · obtain rfl := List.mem_singleton.mp hm
            exact ⟨i, migrations, hload, by simp [hdone]⟩
        · refine ⟨hload, done ++ [migration], by simp [hdone], ?_⟩
          intro m hm
          rcases List.mem_append.mp hm with hm | hm
          · apply (hstored m hm).extend hextends
          · obtain rfl := List.mem_singleton.mp hm
            exact ⟨m.row (appliedAt i), by simp [hrows], hof⟩
  | _ =>
      left
      exact hs.goto trivial

/-- Nothing was applied at first. -/
theorem sound_initial (engine : Engine σ) (packages : Nat → List Resource) (schema : σ) :
  Sound engine packages schema [] (World.initial schema)
  := by
  constructor
  · exact ⟨List.Forall₂.nil, rfl⟩
  · nofun
  · intro i
    trivial

/-- In every state that the processes reach, whatever their packages are, whichever of them end in
the middle and however their transactions interleave, the rows of the ledger are those of packaged
migrations, in the order in which they were applied, with distinct versions; and the schema is what
these migrations make of the empty one, one after another. So no migration is applied twice, or in
part. A call that has returned has found all migrations of its package in the ledger, where they
stay, and it has returned the greatest version of them. -/
theorem migrations_replayed (h : Reachable engine packages appliedAt initial w) :
  (∃ applied, List.Forall₂ Row.Of w.db.rows applied ∧
      replay engine applied initial = .ok w.db.schema ∧
      (applied.map Migration.version).Nodup ∧
      ∀ migration ∈ applied, Packaged engine packages migration) ∧
    ∀ i version, w.processes i = .returned version → ∃ migrations,
      loadMigrations engine (packages i) = .ok migrations ∧
      (∀ migration ∈ migrations, Stored w.db migration ∧ migration.version ≤ version) ∧
      (version = 0 ∨ ∃ migration ∈ migrations, migration.version = version)
  := by
  obtain ⟨applied, hs⟩ : ∃ applied, Sound engine packages initial applied w := by
    induction h with
    | refl => exact ⟨[], sound_initial engine packages initial⟩
    | tail _ hstep ih =>
        obtain ⟨applied, hs⟩ := ih
        rcases hs.step hstep with hs' | ⟨i, migration, migrations, rest, -, -, hs'⟩
        · exact ⟨applied, hs'⟩
        · exact ⟨applied ++ [migration], hs'⟩
  constructor
  · refine ⟨applied, hs.replayed.rows, hs.replayed.schema, ?_, hs.packaged⟩
    apply hs.replayed.nodup
  · intro i version hreturned
    have hcall := hs.calls i
    rw [hreturned] at hcall
    exact hcall

/-! ### The releases of one history -/

section

variable {history : List Migration}

/-- Every package has the migrations of the history up to one of its releases. -/
def Releases (engine : Engine σ) (packages : Nat → List Resource) (history : List Migration) :
    Prop :=
  ∀ i migrations, loadMigrations engine (packages i) = .ok migrations → migrations <+: history

/-- A migration that was not applied, and before which all were, is the next one of the history. -/
theorem next_of_done {db : Database σ} {k : Nat} {done tail : List Migration}
    {migration : Migration} (hnodup : (history.map Migration.version).Nodup)
    (hhistory : history = done ++ migration :: tail)
    (hrows : List.Forall₂ Row.Of db.rows (history.take k))
    (hdone : ∀ m ∈ done, Stored db m) (hnew : ∀ row ∈ db.rows, row.version ≠ migration.version) :
  history.take k = done
  := by
  have hinj : ∀ m ∈ history, ∀ m' ∈ history, m.version = m'.version → m = m' := by
    intro m hm m' hm' heq
    apply List.inj_on_of_nodup_map hnodup hm hm' heq
  have hmem : migration ∉ history.take k := by
    intro hmigration
    obtain ⟨row, hrow, hof⟩ := exists_row hrows hmigration
    apply hnew row hrow hof.1
  have hsub : ∀ m ∈ done, m ∈ history.take k := by
    intro m hm
    obtain ⟨row, hrow, hof⟩ := hdone m hm
    obtain ⟨m', hm', hof'⟩ := exists_migration hrows hrow
    have hhist : m ∈ history := by
      rw [hhistory]
      apply List.mem_append_left _ hm
    rwa [hinj m hhist m' (List.mem_of_mem_take hm') (hof.1.symm.trans hof'.1)]
  have hlength : k ≤ done.length := by
    by_contra hlt
    apply hmem
    rw [hhistory, List.take_append, List.mem_append]
    right
    obtain ⟨n, hn⟩ : ∃ n, k - done.length = n + 1 := ⟨k - done.length - 1, by omega⟩
    rw [hn, List.take_succ_cons]
    apply List.mem_cons_self
  have hnodup' : done.Nodup := by
    rw [hhistory, List.map_append] at hnodup
    apply (List.nodup_append.mp hnodup).1.of_map
  have htake : history.take k = done.take k := by
    rw [hhistory, List.take_append_of_le_length hlength]
  have hsub' : done ⊆ done.take k := by
    intro m hm
    rw [← htake]
    apply hsub m hm
  have hle : done.length ≤ (done.take k).length :=
    (List.subperm_of_subset hnodup' hsub').length_le
  rw [List.length_take] at hle
  rw [htake, List.take_of_length_le (by omega)]

/-- The schema is that of the history up to one of its migrations. -/
structure Ordered (engine : Engine σ) (packages : Nat → List Resource) (initial : σ)
    (history : List Migration) (k : Nat) (w : World σ) : Prop where
  le : k ≤ history.length
  sound : Sound engine packages initial (history.take k) w

/-- A step leaves the schema as it is, or brings it to the next migration of the history. -/
theorem Ordered.step {k : Nat} (hreleases : Releases engine packages history)
    (hnodup : (history.map Migration.version).Nodup)
    (hs : Ordered engine packages initial history k w)
    (h : Step engine packages appliedAt w w') :
  ∃ k', k ≤ k' ∧ Ordered engine packages initial history k' w'
  := by
  rcases hs.sound.step h with hs' | ⟨i, migration, migrations, rest, hcall, hnew, hs'⟩
  · exact ⟨k, le_rfl, hs.le, hs'⟩
  · have hholds := hs.sound.calls i
    rw [hcall] at hholds
    obtain ⟨hload, done, rfl, hdone⟩ := hholds
    obtain ⟨tail, htail⟩ := hreleases i _ hload
    have hhistory : history = done ++ migration :: (rest ++ tail) := by
      rw [← htail]
      simp
    have hdone' := next_of_done hnodup hhistory hs.sound.replayed.rows hdone hnew
    have hlength : k = done.length := by
      rw [← hdone', List.length_take, Nat.min_eq_left hs.le]
    have htake : history.take (k + 1) = history.take k ++ [migration] := by
      rw [hdone', hhistory, hlength, List.take_append, List.take_of_length_le (Nat.le_succ _),
        Nat.add_sub_cancel_left]
      rfl
    refine ⟨k + 1, Nat.le_succ k, ?_, ?_⟩
    · rw [hhistory, hlength]
      simp
    · rw [htake]
      exact hs'

/-- In every state that the processes reach, the schema is that of the history up to one of its
migrations. -/
theorem Reachable.ordered (h : Reachable engine packages appliedAt initial w)
    (hreleases : Releases engine packages history)
    (hnodup : (history.map Migration.version).Nodup) :
  ∃ k, Ordered engine packages initial history k w
  := by
  induction h with
  | refl => exact ⟨0, Nat.zero_le _, sound_initial engine packages initial⟩
  | tail _ hstep ih =>
      obtain ⟨k, hs⟩ := ih
      obtain ⟨k', -, hs'⟩ := hs.step hreleases hnodup hstep
      exact ⟨k', hs'⟩

/-! ### A call with the whole history -/

/-- A run in which only one of the calls goes on. -/
def Alone (engine : Engine σ) (packages : Nat → List Resource) (appliedAt : Nat → Text) (i : Nat)
    (w w' : World σ) : Prop :=
  Relation.ReflTransGen (fun w w' => Step engine packages appliedAt w w' ∧
    ∀ j, j ≠ i → w'.processes j = w.processes j) w w'

/-- The migrations of the history can be executed one after another, and their rows have the form
that the ledger asks for. -/
structure Applicable (engine : Engine σ) (initial final : σ) (history : List Migration) :
    Prop where
  replay : replay engine history initial = .ok final
  versions : (history.map Migration.version).Nodup
  names : (history.map Migration.name).Nodup
  positive : ∀ migration ∈ history, migration.version ≠ 0
  digests : ∀ migration ∈ history, migration.sha256.length = 64

/-- The next migration of the history is executed. -/
theorem Applicable.execute {initial final schema : σ} {done rest : List Migration}
    {migration : Migration}
    (h : Applicable engine initial final (done ++ migration :: rest))
    (hschema : Migrator.replay engine done initial = .ok schema) :
  ∃ schema', executeMigration engine migration schema = .ok schema'
  := by
  have hreplay := h.replay
  rw [Migrator.replay, List.foldlM_append, Except.bind_eq_ok_iff] at hreplay
  obtain ⟨schema₀, hdone, hrest⟩ := hreplay
  obtain rfl := Except.ok.inj (hdone.symm.trans hschema)
  rw [List.foldlM_cons, Except.bind_eq_ok_iff] at hrest
  obtain ⟨schema', hexecute, -⟩ := hrest
  exact ⟨schema', hexecute⟩

/-- A row of a migration of the package passes its check. -/
theorem verifyRow_of {migrations : List Migration}
    (hnodup : (migrations.map Migration.version).Nodup) {row : Row} {migration : Migration}
    (hmigration : migration ∈ migrations) (hof : row.Of migration) :
  verifyRow migrations row = .ok ()
  := by
  obtain ⟨hversion, hname, hsha⟩ := hof
  unfold verifyRow
  cases hfind : migrations.find? fun m => m.version = row.version with
  | none =>
      have hnone := List.find?_eq_none.mp hfind migration hmigration
      simp [hversion] at hnone
  | some migration' =>
      have hversion' := List.find?_some hfind
      rw [decide_eq_true_eq] at hversion'
      obtain rfl : migration' = migration :=
        List.inj_on_of_nodup_map hnodup (List.mem_of_find?_eq_some hfind) hmigration
          (hversion'.trans hversion)
      exact verifyAppliedMigration_iff.mpr ⟨hname, hsha⟩

/-- A ledger with the rows of migrations of the package passes its comparison. -/
theorem exists_verifyMigrationLedger {migrations : List Migration} (requireComplete : Bool)
    {db : Database σ} (hnodup : (migrations.map Migration.version).Nodup)
    (hledger : db.ledger ≠ none)
    (hrows : ∀ row ∈ db.rows, ∃ migration ∈ migrations, row.Of migration)
    (hcomplete : requireComplete = true → ∀ migration ∈ migrations, Stored db migration) :
  ∃ version, verifyMigrationLedger migrations requireComplete db = .ok version
  := by
  obtain ⟨ledger, hledger⟩ := Option.ne_none_iff_exists'.mp hledger
  have heq : db.rows = ledger.rows := by rw [Database.rows, hledger]
  have hmem : ∀ row, row ∈ ledger.rows.insertionSort (fun a b => a.version ≤ b.version) ↔
      row ∈ db.rows := by
    intro row
    rw [heq]
    apply (List.perm_insertionSort _ _).mem_iff
  use greatestVersion
    ((ledger.rows.insertionSort fun a b => a.version ≤ b.version).map Row.version)
  rw [verifyMigrationLedger, hledger]
  change (do
    checkAll _ _
    requireMigrations _ _ _
    pure _ : Except MigrationError Nat) = _
  rw [Except.unit_bind_eq_ok_iff, Except.unit_bind_eq_ok_iff, Except.pure_eq_ok_iff, checkAll_iff]
  refine ⟨?_, ?_, rfl⟩
  · intro row hrow
    obtain ⟨migration, hmigration, hof⟩ := hrows row ((hmem row).mp hrow)
    apply verifyRow_of hnodup hmigration hof
  · unfold requireMigrations
    split
    · rename_i hrequired
      rw [checkAll_iff]
      intro migration hmigration
      obtain ⟨row, hrow, hof⟩ := hcomplete hrequired migration hmigration
      simp only [requireStored, rejectIf_eq_ok_iff, not_forall, not_not]
      exact ⟨row, (hmem row).mpr hrow, hof.1⟩
    · rfl

/-- The transaction of a migration that is stored. -/
theorem applyMigration_of_stored {migration : Migration} {time : Text} {db : Database σ}
    (h : Stored db migration) :
  applyMigration engine migration time db = .ok db
  := by
  obtain ⟨row, hrow, hversion, hname, hsha⟩ := h
  unfold applyMigration
  split
  · rename_i hledger
    rw [Database.rows, hledger] at hrow
    cases hrow
  · rename_i ledger hledger
    rw [Database.rows, hledger] at hrow
    have hget : ledger.get? migration.version = some row := by
      apply Table.get?_eq_some_iff.mpr
      exact ⟨hrow, hversion⟩
    rw [hget]
    change (do
      verifyAppliedMigration migration row
      pure db : Except MigrationError (Database σ)) = _
    rw [Except.unit_bind_eq_ok_iff, verifyAppliedMigration_iff]
    exact ⟨⟨hname, hsha⟩, rfl⟩

/-- The transaction of the next migration of the history. -/
theorem exists_applyMigration {migration : Migration} {time : Text} {db : Database σ}
    {done rest : List Migration} {final : σ}
    (h : Applicable engine initial final (done ++ migration :: rest)) (hledger : db.ledger ≠ none)
    (hreplayed : Replayed engine initial db done) :
  ∃ db', applyMigration engine migration time db = .ok db' ∧ db'.ledger ≠ none
  := by
  obtain ⟨ledger, hledger⟩ := Option.ne_none_iff_exists'.mp hledger
  have hrows : db.rows = ledger.rows := by rw [Database.rows, hledger]
  have hversions := h.versions
  have hnames := h.names
  rw [List.map_append, List.map_cons, List.nodup_append] at hversions hnames
  have hnew : ∀ row ∈ ledger, row.version ≠ migration.version := by
    intro row hrow heq
    rw [Table.mem_def, ← hrows] at hrow
    obtain ⟨m, hm, hof⟩ := exists_migration hreplayed.rows hrow
    apply hversions.2.2 m.version (List.mem_map_of_mem hm) migration.version
      List.mem_cons_self
    rw [← hof.1, heq]
  have hname : ¬ ∃ row ∈ ledger.rows, row.name = migration.name := by
    rintro ⟨row, hrow, heq⟩
    rw [← hrows] at hrow
    obtain ⟨m, hm, hof⟩ := exists_migration hreplayed.rows hrow
    apply hnames.2.2 m.name (List.mem_map_of_mem hm) migration.name List.mem_cons_self
    rw [← hof.2.1, heq]
  obtain ⟨schema', hschema⟩ := h.execute hreplayed.schema
  obtain ⟨ledger', hinsert⟩ := Table.exists_insert? (r := migration.row time) hnew
  refine ⟨⟨some ledger', schema'⟩, ?_, Option.some_ne_none _⟩
  unfold applyMigration
  rw [hledger]
  simp only
  rw [Table.get?_eq_none_iff.mpr hnew, hschema]
  have hpositive := h.positive migration (by simp)
  have hdigests := h.digests migration (by simp)
  simp only [hpositive, hname, hdigests, false_or, ne_eq, not_true_eq_false, if_false, hinsert]

/-- The other calls stay where they are. -/
theorem processes_goto {i j : Nat} (h : j ≠ i) (w : World σ) (p : Process) :
  (w.goto i p).processes j = w.processes j
  := by
  simp [World.goto, h]

/-- What a call is after it has gone on. -/
theorem processes_goto_self (w : World σ) (i : Nat) (p : Process) :
  (w.goto i p).processes i = p
  := by
  simp [World.goto]

/-- The migrations that are stored are among those that were applied. -/
theorem Ordered.done_le {k : Nat} {done rest : List Migration}
    (hs : Ordered engine packages initial history k w)
    (hnodup : (history.map Migration.version).Nodup) (hhistory : history = done ++ rest)
    (hdone : ∀ migration ∈ done, Stored w.db migration) :
  done.length ≤ k
  := by
  have hsub : done ⊆ history.take k := by
    intro m hm
    obtain ⟨row, hrow, hof⟩ := hdone m hm
    obtain ⟨m', hm', hof'⟩ := exists_migration hs.sound.replayed.rows hrow
    have hmem : m ∈ history := by
      rw [hhistory]
      apply List.mem_append_left _ hm
    have heq : m = m' := by
      apply List.inj_on_of_nodup_map hnodup hmem (List.mem_of_mem_take hm')
        (hof.1.symm.trans hof'.1)
    rwa [heq]
  have hnodup' : done.Nodup := by
    rw [hhistory, List.map_append] at hnodup
    apply (List.nodup_append.mp hnodup).1.of_map
  have hle := (List.subperm_of_subset hnodup' hsub).length_le
  rw [List.length_take] at hle
  omega

/-- A call with the whole history applies what is left of it. -/
theorem exists_applied {i k : Nat} {final : σ} {rest : List Migration}
    (hreleases : Releases engine packages history)
    (hhistory : Applicable engine initial final history)
    (hs : Ordered engine packages initial history k w) (hledger : w.db.ledger ≠ none)
    (hprocess : w.processes i = .applying history rest) :
  ∃ w', Alone engine packages appliedAt i w w' ∧ w'.processes i = .applying history [] ∧
    w'.db.ledger ≠ none ∧ Ordered engine packages initial history history.length w'
  := by
  induction rest generalizing w k with
  | nil =>
      have hcall := hs.sound.calls i
      rw [hprocess] at hcall
      obtain ⟨-, done, hdone, hstored⟩ := hcall
      have hle := hs.done_le hhistory.versions hdone hstored
      have hlength : history.length = done.length := by rw [hdone, List.append_nil]
      rw [← hlength] at hle
      obtain rfl : k = history.length := le_antisymm hs.le hle
      exact ⟨w, Relation.ReflTransGen.refl, hprocess, hledger, hs⟩
  | cons migration rest ih =>
      have hcall := hs.sound.calls i
      rw [hprocess] at hcall
      obtain ⟨-, done, hdone, hstored⟩ := hcall
      obtain ⟨db, happly, hledger'⟩ : ∃ db,
          applyMigration engine migration (appliedAt i) w.db = .ok db ∧ db.ledger ≠ none := by
        by_cases hmigration : Stored w.db migration
        · exact ⟨w.db, applyMigration_of_stored hmigration, hledger⟩
        · have hle := hs.done_le hhistory.versions hdone hstored
          have hk : k = done.length := by
            by_contra hne
            apply hmigration
            apply hs.sound.replayed.stored
            rw [hdone, List.take_append, List.mem_append]
            right
            obtain ⟨n, hn⟩ : ∃ n, k - done.length = n + 1 := ⟨k - done.length - 1, by omega⟩
            rw [hn, List.take_succ_cons]
            apply List.mem_cons_self
          have hreplayed := hs.sound.replayed
          rw [hdone, hk, List.take_left'] at hreplayed
          · rw [hdone] at hhistory
            apply exists_applyMigration hhistory hledger hreplayed
          · rfl
      have hstep : Step engine packages appliedAt w
          { w.goto i (.applying history rest) with db := db } :=
        Step.apply i migration history rest db hprocess happly
      obtain ⟨k', -, hs'⟩ := hs.step hreleases hhistory.versions hstep
      obtain ⟨w', hrun, hw'⟩ := ih hs' hledger' (processes_goto_self _ _ _)
      refine ⟨w', ?_, hw'⟩
      apply Relation.ReflTransGen.head ⟨hstep, ?_⟩ hrun
      intro j hj
      apply processes_goto hj

/-- A call alone goes on by one step. -/
theorem Ordered.advance {i k : Nat} {w₀ : World σ} (hreleases : Releases engine packages history)
    (hnodup : (history.map Migration.version).Nodup)
    (hs : Ordered engine packages initial history k w)
    (hrun : Alone engine packages appliedAt i w₀ w) {p : Process} {db : Database σ}
    (hstep : Step engine packages appliedAt w { w.goto i p with db := db }) :
  ∃ k', Alone engine packages appliedAt i w₀ { w.goto i p with db := db } ∧
    Ordered engine packages initial history k' { w.goto i p with db := db }
  := by
  obtain ⟨k', -, hs'⟩ := hs.step hreleases hnodup hstep
  refine ⟨k', hrun.tail ⟨hstep, ?_⟩, hs'⟩
  intro j hj
  apply processes_goto hj

/-- Every row is that of a migration of the history. -/
theorem Ordered.rows {k : Nat} (hs : Ordered engine packages initial history k w) :
  ∀ row ∈ w.db.rows, ∃ migration ∈ history, row.Of migration
  := by
  intro row hrow
  obtain ⟨migration, hmigration, hof⟩ := exists_migration hs.sound.replayed.rows hrow
  exact ⟨migration, List.mem_of_mem_take hmigration, hof⟩

/-- The ledger exists once it was created. -/
theorem bootstrapLedger_ledger (db : Database σ) : (bootstrapLedger db).ledger ≠ none := by
  unfold bootstrapLedger
  split
  · exact Option.some_ne_none _
  · rename_i ledger hledger
    rw [hledger]
    exact Option.some_ne_none _

/-- A call with the whole history that has just begun comes to its end alone. -/
theorem exists_returned_of_bootstrapping {i k : Nat} {final : σ} {w₀ : World σ}
    (hreleases : Releases engine packages history)
    (hhistory : Applicable engine initial final history)
    (hload : loadMigrations engine (packages i) = .ok history)
    (hs : Ordered engine packages initial history k w)
    (hrun : Alone engine packages appliedAt i w₀ w) (hprocess : w.processes i = .bootstrapping) :
  ∃ w' version, Alone engine packages appliedAt i w₀ w' ∧ w'.processes i = .returned version ∧
    w'.db.schema = final
  := by
  have hversions := hhistory.versions
  obtain ⟨k₁, hrun₁, hs₁⟩ := hs.advance hreleases hversions hrun (.bootstrap i hprocess)
  obtain ⟨k₂, hrun₂, hs₂⟩ := hs₁.advance hreleases hversions hrun₁
    (.load i history (processes_goto_self _ _ _) hload)
  have hledger := bootstrapLedger_ledger w.db
  obtain ⟨version, hverify⟩ := exists_verifyMigrationLedger false hversions hledger hs₂.rows
    nofun
  obtain ⟨k₃, hrun₃, hs₃⟩ := hs₂.advance hreleases hversions hrun₂
    (.verify i version history (processes_goto_self _ _ _) hverify)
  obtain ⟨w₄, hrun₄, hprocess₄, hledger₄, hs₄⟩ := exists_applied hreleases hhistory hs₃ hledger
    (processes_goto_self _ _ _)
  have hstored : ∀ migration ∈ history, Stored w₄.db migration := by
    intro migration hmigration
    apply hs₄.sound.replayed.stored
    rwa [List.take_length]
  obtain ⟨version', hverify'⟩ := exists_verifyMigrationLedger true hversions hledger₄
    hs₄.rows (fun _ => hstored)
  obtain ⟨k₅, hrun₅, -⟩ := hs₄.advance hreleases hversions (hrun₃.trans hrun₄)
    (.complete i version' history hprocess₄ hverify')
  refine ⟨_, version', hrun₅, processes_goto_self _ _ _, ?_⟩
  have hreplay := hs₄.sound.replayed.schema
  rw [List.take_length] at hreplay
  apply Except.ok.inj (hreplay.symm.trans hhistory.replay)

end

/-- **The schema is that of a release.** Let every package hold the migrations of one history up to
one of its releases. In every state that the processes reach, the ledger holds the first migrations
of the history, in its order, and the schema is what these make of the empty one. When the whole
history can be applied, then from every such state, whatever was interrupted, a call with the whole
history that is made again returns, and the schema is that of the whole history. -/
theorem migrations_in_order {history : List Migration}
    (h : Reachable engine packages appliedAt initial w)
    (hreleases : Releases engine packages history)
    (hversions : (history.map Migration.version).Nodup) :
  (∃ k, List.Forall₂ Row.Of w.db.rows (history.take k) ∧
      replay engine (history.take k) initial = .ok w.db.schema) ∧
    ∀ final, Applicable engine initial final history → ∀ i,
      loadMigrations engine (packages i) = .ok history →
      ∃ w' version, Alone engine packages appliedAt i w w' ∧
        w'.processes i = .returned version ∧ w'.db.schema = final
  := by
  obtain ⟨k, hs⟩ := h.ordered hreleases hversions
  refine ⟨⟨k, hs.sound.replayed.rows, hs.sound.replayed.schema⟩, ?_⟩
  intro final hhistory i hload
  by_cases hbegun : w.processes i = .bootstrapping
  · apply exists_returned_of_bootstrapping hreleases hhistory hload hs Relation.ReflTransGen.refl
      hbegun
  · obtain ⟨k', hrun, hs'⟩ := hs.advance hreleases hversions Relation.ReflTransGen.refl
      (.restart i hbegun)
    apply exists_returned_of_bootstrapping hreleases hhistory hload hs' hrun
      (processes_goto_self _ _ _)

/-! ### Two releases -/

/-- A database whose schema is the list of the statements that were executed. -/
def sampleEngine : Engine (List Text) where
  sha256 _ := List.replicate 64 '0'
  completeStatement _ := true
  execute statement schema := some (schema ++ [statement])

/-- The first file of the samples, and the second one. -/
def sampleResources : List Resource :=
  [ ⟨true, "0002_jobs.sql".toList, Text.encode "CREATE b;".toList⟩,
    ⟨true, "0001_base.sql".toList, Text.encode "CREATE a; CREATE c;".toList⟩ ]

/-- The migrations of the samples. -/
def sampleHistory : List Migration :=
  [ ⟨1, "base".toList, List.replicate 64 '0', "CREATE a; CREATE c;".toList⟩,
    ⟨2, "jobs".toList, List.replicate 64 '0', "CREATE b;".toList⟩ ]

/-- The files of the samples are the migrations of the samples. -/
theorem load_sample : loadMigrations sampleEngine sampleResources = .ok sampleHistory := by
  decide +kernel

/-- The migrations of the samples can be applied. -/
theorem applicable_sample : Applicable sampleEngine []
    ["CREATE a;".toList, "CREATE c;".toList, "CREATE b;".toList] sampleHistory := by
  constructor
  · rfl
  · decide
  · decide
  · decide
  · decide

/-- Every process has the files of the samples. -/
theorem releases_sample :
  Releases sampleEngine (fun _ => sampleResources) sampleHistory
  := by
  intro i migrations hload
  rw [load_sample] at hload
  rw [← Except.ok.inj hload]

/-- A call that has returned in a run of the samples has found its migrations. -/
theorem migrations_replayed_sample :
  ∃ w version, Reachable sampleEngine (fun _ => sampleResources) (fun _ => []) [] w ∧
    w.processes 0 = .returned version ∧ ∀ migration ∈ sampleHistory, Stored w.db migration
  := by
  obtain ⟨w, version, hrun, hreturned, -⟩ : ∃ w version,
      Alone sampleEngine (fun _ => sampleResources) (fun _ => []) 0 (World.initial []) w ∧
      w.processes 0 = .returned version ∧ w.db.schema = _ :=
    exists_returned_of_bootstrapping releases_sample applicable_sample load_sample
      ⟨Nat.zero_le _, sound_initial sampleEngine (fun _ => sampleResources) []⟩
      Relation.ReflTransGen.refl rfl
  have hreachable : Reachable sampleEngine (fun _ => sampleResources) (fun _ => []) [] w :=
    Relation.ReflTransGen.mono (fun _ _ h => h.1) _ _ hrun
  obtain ⟨-, hcalls⟩ := migrations_replayed hreachable
  obtain ⟨migrations, hload, hstored, -⟩ := hcalls 0 version hreturned
  rw [load_sample] at hload
  obtain rfl := Except.ok.inj hload
  refine ⟨w, version, hreachable, hreturned, ?_⟩
  intro migration hmigration
  apply (hstored migration hmigration).1

/-- After a call was interrupted, another one makes the schema of the samples. -/
theorem migrations_in_order_sample :
  ∃ w version, Alone sampleEngine (fun _ => sampleResources) (fun _ => []) 0
      ((World.initial []).goto 1 .crashed) w ∧
    w.processes 0 = .returned version ∧
    w.db.schema = ["CREATE a;".toList, "CREATE c;".toList, "CREATE b;".toList]
  := by
  have hreachable : Reachable sampleEngine (fun _ => sampleResources) (fun _ => []) []
      ((World.initial []).goto 1 .crashed) := Relation.ReflTransGen.single (.crash 1)
  obtain ⟨-, hends⟩ := migrations_in_order hreachable releases_sample applicable_sample.versions
  apply hends _ applicable_sample 0 load_sample

end Migrator

end DrawingMachine
