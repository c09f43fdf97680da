import Docsmith.Metadata.Session

/-!
# Ownership

A type is owned if its module is the target or belongs to a family of modules named by how they
start. A reference lies in the domain if it names an owned type at any depth.
-/

namespace Docsmith.Discovery

open Docsmith.Metadata Docsmith.Text

/-- Which modules are owned. -/
structure Ownership where
  target : String
  families : List String
  deriving Repr

namespace Ownership

def holdsModule (o : Ownership) (module : String) : Bool :=
  module = o.target || o.families.any fun f => !f.isEmpty && beginsWith f.toList module.toList

mutual

/-- The reference names an owned type, itself or in its arguments or element. -/
def owns (o : Ownership) (s : Session) : TypeReference → Bool
  | .named name => (s.find? name).any (o.holdsModule ·.module)
  | .generic _ args => ownsAny o s args
  | .array element => owns o s element

def ownsAny (o : Ownership) (s : Session) : List TypeReference → Bool
  | [] => false
  | t :: ts => owns o s t || ownsAny o s ts

end

end Ownership

end Docsmith.Discovery
