import DrawingMachine.Base.Check
import DrawingMachine.Base.Table
import DrawingMachine.Base.Text
import Mathlib.Data.List.Sort
import Mathlib.Logic.Function.Basic
import Mathlib.Logic.Relation

/-!
# The migrations of the database

The schema of the database is made by migrations, which come as files with the package. Each of
them is applied in a transaction of its own that also writes its row into a ledger. Before and
after, the ledger is compared with the files. The database itself, what its statements do, and the
digest of a file are parameters.
-/

namespace DrawingMachine

namespace Migrator

/-! ### The files of the package -/

/-- A file of the package of migrations. -/
structure Resource where
  isFile : Bool
  name : Text
  contents : List UInt8
  deriving DecidableEq, Repr

/-- A migration. -/
structure Migration where
  version : Nat
  name : Text
  sha256 : Text
  sql : Text
  deriving DecidableEq, Repr

/-- What the migrator raises. -/
inductive MigrationError where
  /-- A `DrawingMachineError` of the category `INTERNAL`, with its message and its details. -/
  | migration (code message : Text) (version : Option Nat) (details : List (String × Text))
  /-- The `sqlite3.Error` of a statement. -/
  | database
  deriving DecidableEq, Repr

/-- SQLite, and the digest of a file. -/
structure Engine (σ : Type) where
  sha256 : List UInt8 → Text
  /-- `sqlite3.complete_statement`. -/
  completeStatement : Text → Bool
  /-- What a statement makes of the schema, unless it raises. -/
  execute : Text → σ → Option σ

/-- A digit of a version. -/
def isVersionDigit (c : Char) : Bool := '0' ≤ c && c ≤ '9'

/-- A character of the name of a migration. -/
def isNameCharacter (c : Char) : Bool := ('a' ≤ c && c ≤ 'z') || isVersionDigit c || c = '_'

/-- The number that digits denote. -/
def versionNumber (digits : Text) : Nat :=
  digits.foldl (fun n c => 10 * n + (c.toNat - '0'.toNat)) 0

/-- The version and the name of a migration, by the name of its file:
`[0-9]{4}_[a-z0-9_]+\.sql`. -/
def parseMigrationName (name : Text) : Option (Nat × Text) :=
  match name with
  | a :: b :: c :: d :: '_' :: rest =>
      let stem := rest.take (rest.length - 4)
      if [a, b, c, d].all isVersionDigit ∧ rest.drop (rest.length - 4) = ".sql".toList ∧ stem ≠ [] ∧
          stem.all isNameCharacter then
        some (versionNumber [a, b, c, d], stem)
      else none
  | _ => none

section

variable {σ : Type} (engine : Engine σ)

/-- A file of the package is read. -/
def loadResource (migrations : List Migration) (resource : Resource) :
    Except MigrationError (List Migration) :=
  if resource.isFile = false ∨ resource.name = "__init__.py".toList then .ok migrations
  else
    match parseMigrationName resource.name with
    | none =>
        if ".sql".toList <:+ resource.name then
          .error (.migration "DATABASE_MIGRATION_INVALID".toList
            ("Invalid migration resource name: ".toList ++ resource.name) none
            [("migration_resource", resource.name)])
        else .ok migrations
    | some (version, name) =>
        match Text.decode? resource.contents with
        | none =>
            .error (.migration "DATABASE_MIGRATION_INVALID".toList
              ("Migration resource is not valid UTF-8: ".toList ++ resource.name) none
              [("migration_resource", resource.name)])
        | some sql =>
            if ∃ m ∈ migrations, m.version = version then
              .error (.migration "DATABASE_MIGRATION_INVALID".toList
                ("Duplicate migration version: ".toList ++ (toString version).toList) (some version)
                [])
            else
              .ok (migrations ++ [⟨version, name, engine.sha256 resource.contents, sql⟩])

/-- The migrations of the package, in the order of their versions. -/
def loadMigrations (resources : List Resource) : Except MigrationError (List Migration) :=
  match resources.foldlM (loadResource engine) [] with
  | .error error => .error error
  | .ok migrations => .ok (migrations.insertionSort fun a b => a.version ≤ b.version)

/-! ### Statements -/

/-- The statements of a script, and what remains behind the last of them. The characters since the
last statement are read already. -/
def splitStatements : Text → Text → List Text × Text
  | candidate, [] => ([], candidate)
  | candidate, c :: rest =>
      if c = ';' ∧ engine.completeStatement (candidate ++ [c]) = true then
        let (statements, remainder) := splitStatements [] rest
        ((candidate ++ [c]) :: statements, remainder)
      else splitStatements (candidate ++ [c]) rest

/-- The statements of a migration are executed one after another; what remains behind the last one
must be blank. -/
def executeMigration (migration : Migration) (schema : σ) : Except MigrationError σ :=
  let (statements, remainder) := splitStatements engine [] migration.sql
  match (statements.map Text.strip).foldlM (fun s statement => engine.execute statement s)
      schema with
  | none => .error .database
  | some schema' =>
      if Text.strip remainder ≠ [] then
        .error (.migration "DATABASE_MIGRATION_INVALID".toList
          ("Migration SQL is incomplete: ".toList ++
            List.leftpad 4 '0' (toString migration.version).toList ++ '_' :: migration.name ++
            ".sql".toList)
          (some migration.version) [("migration_name", migration.name)])
      else .ok schema'

/-! ### The ledger -/

/-- A row of the table `schema_migrations`. -/
structure Row where
  version : Nat
  name : Text
  sha256 : Text
  appliedAt : Text
  deriving DecidableEq, Repr

/-- The database: the ledger, where it exists, and the rest of the schema. -/
structure Database (σ : Type) where
  ledger : Option (Table Nat Row.version)
  schema : σ

/-- The ledger is created, unless it exists. -/
def bootstrapLedger (db : Database σ) : Database σ :=
  match db.ledger with
  | none => { db with ledger := some (Table.empty Row.version) }
  | some _ => db

/-- The row has the name and the digest of its migration. -/
def verifyAppliedMigration (migration : Migration) (row : Row) : Except MigrationError Unit := do
  rejectIf (row.name ≠ migration.name)
    (.migration "DATABASE_MIGRATION_IDENTITY_MISMATCH".toList
      ("Stored migration name does not match version ".toList ++
        (toString migration.version).toList)
      (some migration.version) [("migration_name", migration.name)])
  rejectIf (row.sha256 ≠ migration.sha256)
    (.migration "DATABASE_MIGRATION_CHECKSUM_MISMATCH".toList
      ("Stored migration checksum does not match version ".toList ++
        (toString migration.version).toList)
      (some migration.version) [("migration_name", migration.name)])

/-- The row is that of a migration of the package. -/
def verifyRow (migrations : List Migration) (row : Row) : Except MigrationError Unit :=
  match migrations.find? fun m => m.version = row.version with
  | none =>
      .error (.migration "DATABASE_MIGRATION_UNKNOWN".toList
        ("Stored migration has no packaged resource: ".toList ++ (toString row.version).toList)
        (some row.version) [("migration_name", row.name)])
  | some migration => verifyAppliedMigration migration row

/-- The migration has its row. -/
def requireStored (rows : List Row) (migration : Migration) : Except MigrationError Unit :=
  rejectIf (∀ row ∈ rows, row.version ≠ migration.version)
    (.migration "DATABASE_MIGRATION_MISSING".toList
      ("Packaged migration is missing from the ledger: ".toList ++
        (toString migration.version).toList)
      (some migration.version) [("migration_name", migration.name)])

/-- Every check passes, one after another. -/
def checkAll {α : Type} (check : α → Except MigrationError Unit) :
    List α → Except MigrationError Unit
  | [] => .ok ()
  | a :: rest => do
      check a
      checkAll check rest

/-- Every migration of the package has its row, where this is asked for. -/
def requireMigrations (requireComplete : Bool) (rows : List Row) (migrations : List Migration) :
    Except MigrationError Unit :=
  if requireComplete then checkAll (requireStored rows) migrations else .ok ()

/-- The greatest version of the rows. -/
def greatestVersion (versions : List Nat) : Nat := versions.foldr max 0

/-- The ledger is compared with the package; the result is the version of the schema. -/
def verifyMigrationLedger (migrations : List Migration) (requireComplete : Bool)
    (db : Database σ) : Except MigrationError Nat :=
  match db.ledger with
  | none => .error .database
  | some ledger => do
      let rows := ledger.rows.insertionSort fun a b => a.version ≤ b.version
      checkAll (verifyRow migrations) rows
      requireMigrations requireComplete rows migrations
      pure (greatestVersion (rows.map Row.version))

/-- The row of a migration. -/
def Migration.row (migration : Migration) (appliedAt : Text) : Row :=
  ⟨migration.version, migration.name, migration.sha256, appliedAt⟩

/-- The transaction that applies a migration, unless its row is there. -/
def applyMigration (migration : Migration) (appliedAt : Text) (db : Database σ) :
    Except MigrationError (Database σ) :=
  match db.ledger with
  | none => .error .database
  | some ledger =>
      match ledger.get? migration.version with
      | some row => do
          verifyAppliedMigration migration row
          pure db
      | none =>
          match executeMigration engine migration db.schema with
          | .error error => .error error
          | .ok schema =>
              -- the constraints of the table: a positive version, one row of each name, 64 digits
              if migration.version = 0 ∨ (∃ row ∈ ledger.rows, row.name = migration.name) ∨
                  migration.sha256.length ≠ 64 then .error .database
              else
                match ledger.insert? (migration.row appliedAt) with
                | none => .error .database
                | some ledger => .ok ⟨some ledger, schema⟩

end

/-! ### Processes -/

/-- Where a call of `migrate` is. -/
inductive Process where
  | bootstrapping
  | loading
  /-- The ledger is to be compared with the package. -/
  | verifying (migrations : List Migration)
  /-- The rest of the package is to be applied. -/
  | applying (migrations rest : List Migration)
  | returned (version : Nat)
  | raised (error : MigrationError)
  /-- The process has ended in the middle of the call. -/
  | crashed
  deriving DecidableEq, Repr

/-- The database, and the calls of the processes that have opened it. -/
structure World (σ : Type) where
  db : Database σ
  processes : Nat → Process

variable {σ : Type}

/-- A call goes on. -/
def World.goto (w : World σ) (i : Nat) (p : Process) : World σ :=
  { w with processes := Function.update w.processes i p }

/-- One transaction of one of the calls; what it writes is rolled back when it raises. -/
inductive Step (engine : Engine σ) (packages : Nat → List Resource) (appliedAt : Nat → Text) :
    World σ → World σ → Prop
  | bootstrap {w} (i : Nat) (h : w.processes i = .bootstrapping) :
      Step engine packages appliedAt w { w.goto i .loading with db := bootstrapLedger w.db }
  | load {w} (i : Nat) (migrations : List Migration) (h : w.processes i = .loading)
      (hload : loadMigrations engine (packages i) = .ok migrations) :
      Step engine packages appliedAt w (w.goto i (.verifying migrations))
  | loadFails {w} (i : Nat) (error : MigrationError) (h : w.processes i = .loading)
      (hload : loadMigrations engine (packages i) = .error error) :
      Step engine packages appliedAt w (w.goto i (.raised error))
  | verify {w} (i version : Nat) (migrations : List Migration)
      (h : w.processes i = .verifying migrations)
      (hverify : verifyMigrationLedger migrations false w.db = .ok version) :
      Step engine packages appliedAt w (w.goto i (.applying migrations migrations))
  | verifyFails {w} (i : Nat) (error : MigrationError) (migrations : List Migration)
      (h : w.processes i = .verifying migrations)
      (hverify : verifyMigrationLedger migrations false w.db = .error error) :
      Step engine packages appliedAt w (w.goto i (.raised error))
  | apply {w} (i : Nat) (migration : Migration) (migrations rest : List Migration)
      (db : Database σ) (h : w.processes i = .applying migrations (migration :: rest))
      (happly : applyMigration engine migration (appliedAt i) w.db = .ok db) :
      Step engine packages appliedAt w { w.goto i (.applying migrations rest) with db := db }
  | applyFails {w} (i : Nat) (migration : Migration) (migrations rest : List Migration)
      (error : MigrationError) (h : w.processes i = .applying migrations (migration :: rest))
      (happly : applyMigration engine migration (appliedAt i) w.db = .error error) :
      Step engine packages appliedAt w (w.goto i (.raised error))
  | complete {w} (i version : Nat) (migrations : List Migration)
      (h : w.processes i = .applying migrations [])
      (hverify : verifyMigrationLedger migrations true w.db = .ok version) :
      Step engine packages appliedAt w (w.goto i (.returned version))
  | completeFails {w} (i : Nat) (error : MigrationError) (migrations : List Migration)
      (h : w.processes i = .applying migrations [])
      (hverify : verifyMigrationLedger migrations true w.db = .error error) :
      Step engine packages appliedAt w (w.goto i (.raised error))
  -- A transaction finds the database locked, or the process ends; the call is made again later.
  | locked {w} (i : Nat) : Step engine packages appliedAt w (w.goto i (.raised .database))
  | crash {w} (i : Nat) : Step engine packages appliedAt w (w.goto i .crashed)
  | restart {w} (i : Nat) (h : w.processes i ≠ .bootstrapping) :
      Step engine packages appliedAt w (w.goto i .bootstrapping)

/-- The database before its first migration. -/
def World.initial (schema : σ) : World σ where
  db := ⟨none, schema⟩
  processes := fun _ => .bootstrapping

/-- A world that a run of the processes reaches. -/
def Reachable (engine : Engine σ) (packages : Nat → List Resource) (appliedAt : Nat → Text)
    (schema : σ) (w : World σ) : Prop :=
  Relation.ReflTransGen (Step engine packages appliedAt) (World.initial schema) w

end Migrator

end DrawingMachine
