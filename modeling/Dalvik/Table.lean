/-!
# Tables and sections

A dex file starts with a header, which places six tables of fixed-size items. Every reference
between items is an index into one of the tables. The tables, the header and two further blocks are
the sections of the file.
-/

namespace Dalvik

/-- The tables of a dex file, in the order of the header. -/
inductive Table where
  | strings
  | types
  | protos
  | fields
  | methods
  | classes
  deriving DecidableEq, Repr

namespace Table

/-- The size of an item in bytes. -/
def itemSize : Table → Nat
  | strings => 4
  | types => 4
  | protos => 12
  | fields => 8
  | methods => 8
  | classes => 32

/-- What one item is called in messages. -/
def itemName : Table → String
  | strings => "string_id"
  | types => "type_id"
  | protos => "proto_id"
  | fields => "field_id"
  | methods => "method_id"
  | classes => "class_def"

/-- What the table as a part of the file is called. -/
def name (table : Table) : String :=
  table.itemName ++ "s"

/-- What the things that the items stand for are called. -/
def plural : Table → String
  | strings => "strings"
  | types => "types"
  | protos => "protos"
  | fields => "fields"
  | methods => "methods"
  | classes => "classes"

/-- The singular in running text. -/
def phrase : Table → String
  | strings => "string"
  | types => "type"
  | protos => "proto"
  | fields => "field"
  | methods => "method"
  | classes => "class def"

/-- What the pool made of the table is called in the log. -/
def poolName : Table → String
  | strings => "StringPool"
  | types => "TypePool"
  | protos => "ProtoPool"
  | fields => "FieldPool"
  | methods => "MethodPool"
  | classes => "ClassDefPool"

end Table

/-- The named parts of a dex file that the header places. -/
inductive Section where
  | header
  | table (table : Table)
  | data
  | link
  deriving DecidableEq, Repr

namespace Section

def name : Section → String
  | header => "header"
  | table t => t.name
  | data => "data"
  | link => "link"

/-- All sections, in the order in which they are laid out. -/
def all : List Section :=
  [header, table .strings, table .types, table .protos, table .fields, table .methods,
    table .classes, data, link]

/-- The section of a name. -/
def ofName? (name : String) : Option Section :=
  all.find? fun candidate => candidate.name == name

end Section

end Dalvik
