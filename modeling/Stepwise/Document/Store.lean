import Stepwise.Document.Basic
import Stepwise.Location.Basic

/-!
# The store of open documents

Documents are kept under their normalized address. Every stored document gets a
revision of its own; revisions grow and are not used again, also when a document is
closed and opened anew.
-/
namespace Stepwise

/-- The open documents and the last revision given out. -/
structure Store where
  documents : List Document
  revision : Nat
  deriving DecidableEq, Repr

namespace Store

def empty : Store := ⟨[], 0⟩

instance : Inhabited Store := ⟨empty⟩

/-- The document that the next update stores. -/
def nextDocument (s : Store) (uri : String) (version : Int) (lines : List String) : Document :=
  ⟨Location.normalize uri, version, s.revision + 1, lines⟩

/-- Stores a document in place of one with the same address. -/
def update (s : Store) (uri : String) (version : Int) (lines : List String) : Store :=
  let d := s.nextDocument uri version lines
  { documents := d :: s.documents.filter fun e => e.uri != d.uri
    revision := d.revision }

def close (s : Store) (uri : String) : Store :=
  { s with documents := s.documents.filter fun e => e.uri != Location.normalize uri }

def get? (s : Store) (uri : String) : Option Document :=
  s.documents.find? fun e => e.uri == Location.normalize uri

def size (s : Store) : Nat :=
  s.documents.length

end Store
end Stepwise
