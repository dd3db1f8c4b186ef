/-!
# Stages of loading

How far the loading of a file has come. Each stage but the last says that everything before it is
complete, and a file that cannot be loaded ends at `failed`.
-/

namespace Dalvik

inductive Stage where
  | unparsed
  | headerValidated
  | stringsResolved
  | typesResolved
  | protosResolved
  | fieldsResolved
  | methodsResolved
  | ready
  | failed
  deriving DecidableEq, Repr

namespace Stage

/-- The stages in their order. -/
def all : List Stage :=
  [unparsed, headerValidated, stringsResolved, typesResolved, protosResolved, fieldsResolved,
    methodsResolved, ready, failed]

/-- The place of a stage in the order, counted from zero. -/
def rank : Stage → Nat
  | unparsed => 0
  | headerValidated => 1
  | stringsResolved => 2
  | typesResolved => 3
  | protosResolved => 4
  | fieldsResolved => 5
  | methodsResolved => 6
  | ready => 7
  | failed => 8

def text : Stage → String
  | unparsed => "unparsed"
  | headerValidated => "header validated"
  | stringsResolved => "strings resolved"
  | typesResolved => "types resolved"
  | protosResolved => "protos resolved"
  | fieldsResolved => "fields resolved"
  | methodsResolved => "methods resolved"
  | ready => "ready"
  | failed => "failed"

instance : LT Stage := ⟨fun a b => a.rank < b.rank⟩

instance (a b : Stage) : Decidable (a < b) := inferInstanceAs (Decidable (a.rank < b.rank))

end Stage

end Dalvik
