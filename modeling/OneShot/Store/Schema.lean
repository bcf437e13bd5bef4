/-!
# The tables of the database

What the database is made of: the columns of each table with their types, and
the names of what keeps its rows unique and easy to find.  A database that has
been brought up to date keeps a note of its version in a table of its own, and
keeps it also when the other tables are taken away again.
-/

namespace OneShot.Schema

/-- A column. -/
structure Column where
  name : String
  type : String
  nullable : Bool := false
  deriving Repr, DecidableEq

/-- Columns whose values are found in another table. -/
structure Reference where
  columns : List String
  table : String
  deriving Repr, DecidableEq

/-- A table. -/
structure Table where
  name : String
  columns : List Column
  unique : List String := []
  indexes : List String := []
  references : List Reference := []
  deriving Repr, DecidableEq

def text (width : String) : String :=
  "VARCHAR(" ++ width ++ ")"

/-- The columns for identity, which all resources have. -/
def identity : List Column :=
  [⟨"uid", text "36", false⟩, ⟨"namespace", text "253", false⟩, ⟨"name", text "253", false⟩,
   ⟨"resource_version", "INTEGER", false⟩, ⟨"creation_timestamp", "DATETIME", false⟩,
   ⟨"labels", "TEXT", false⟩]

def ats : Table :=
  { name := "at"
    columns := identity ++
      [⟨"schedule", "VARCHAR", false⟩, ⟨"command", "VARCHAR", false⟩,
       ⟨"phase", text "32", false⟩]
    unique := ["uq_at_namespace"] }

def tasks : Table :=
  { name := "task"
    columns := identity ++
      [⟨"owner_api_version", "VARCHAR", true⟩, ⟨"owner_kind", text "63", true⟩,
       ⟨"owner_name", text "253", true⟩, ⟨"owner_uid", text "36", true⟩,
       ⟨"owner_controller", "BOOLEAN", false⟩, ⟨"owner_block_deletion", "BOOLEAN", false⟩,
       ⟨"container_name", text "63", false⟩, ⟨"image", "VARCHAR", false⟩,
       ⟨"command", "TEXT", false⟩, ⟨"restart_policy", text "16", false⟩,
       ⟨"phase", text "16", false⟩, ⟨"reason", "VARCHAR", true⟩, ⟨"message", "TEXT", true⟩]
    unique := ["uq_task_namespace"]
    indexes := ["ix_task_owner_uid"]
    references := [⟨["owner_uid"], "at"⟩] }

def version : Table :=
  { name := "alembic_version", columns := [⟨"version_num", text "32", false⟩] }

def all : List Table :=
  [version, ats, tasks]

/-- Add the tables that are not there yet. -/
def upgrade (database : List Table) : List Table :=
  database ++ all.filter fun table => !database.any (·.name == table.name)

/-- Take all tables away but the note of the version. -/
def downgrade (database : List Table) : List Table :=
  database.filter fun table => table.name == version.name

end OneShot.Schema
