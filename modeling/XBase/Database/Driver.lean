import XBase.Heap.Value
import XBase.Log
import XBase.Text.Case

/-!
# Databases behind the connection object

A driver connects to a database and answers for the sessions that it gives out. What a session
answers may depend on the calls that it has received before.
-/

namespace XBase

/-- The settings of the connection object, read when it connects. -/
structure Settings where
  provider : String
  server : String
  database : String
  user : String
  password : String
  port : String
deriving DecidableEq, Repr

inductive SessionCall where
  | open (table : String)
  | close
deriving DecidableEq, Repr

/-- A kind of database. An error is the text that the program gets to see. -/
structure Driver where
  /-- Connects, or fails; a success may leave records. -/
  connect : Settings → Except String (List Record)
  /-- The rows of a table, given the calls before this one. -/
  rows : Settings → List SessionCall → String → Except String (List Row)
  /-- Ends a session, given the calls before this one. -/
  close : Settings → List SessionCall → Except String Unit

/-- A session that a driver has given out, with the calls that it has received. -/
structure DriverSession where
  driver : Driver
  settings : Settings
  calls : List SessionCall

structure Table where
  name : String
  columns : List String
  rows : List (List Value)

namespace Table

/-- The rows with their columns; values beyond the last column are left out. -/
def namedRows (table : Table) : List Row :=
  table.rows.map table.columns.zip

/-- The last table of a name; names that differ only in case are one name. -/
def find? (tables : List Table) (name : String) : Option Table :=
  tables.reverse.find? fun table => Text.lower table.name == Text.lower name

end Table

def Driver.ofTables (tables : List Table) : Driver where
  connect settings :=
    .ok [⟨.debug, "memory driver connected for database `" ++ settings.database ++ "`"⟩]
  rows _ calls name :=
    if calls.contains .close then .error "The connection is closed."
    else
      match Table.find? tables name with
      | some table => .ok table.namedRows
      | none => .error ("Table `" ++ name ++ "` doesn't exist.")
  close _ _ := .ok ()

/-- Drivers by the number of their provider; of two with one number the later counts. -/
abbrev Registry := List (Int × Driver)

namespace Registry

def driver? (registry : Registry) (provider : Int) : Option Driver :=
  (registry.reverse.find? fun entry => entry.1 == provider).map Prod.snd

end Registry

end XBase
