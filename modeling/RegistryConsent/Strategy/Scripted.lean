import RegistryConsent.Strategy

/-!
# Scripted strategies

Strategies whose answer is fixed beforehand, to try an authority with.
-/

namespace RegistryConsent

/-- A strategy that gives a fixed answer. -/
structure Script where
  name : String
  /-- The types of objects it judges; none given means all. -/
  judges : Option (List ObjectType) := none
  outcome : Outcome
  deferrable : List ObjectType := []

namespace Script

/-- A script that passes with the given records. -/
def passing (name : String) (records : List Record) : Script := { name, outcome := .ok records }

/-- A script that fails with the given messages. -/
def failingWith (name : String) (messages : List Message) : Script :=
  { name, outcome := .error ⟨messages⟩ }

/-- A script that fails with a message of its own. -/
def failing (name : String) : Script :=
  failingWith name [⟨.error, name ++ " rejected the update"⟩]

/-- The strategy that follows a script. -/
def strategy (s : Script) : Strategy where
  name := s.name
  supports u := match s.judges with
    | some types => types.contains u.objectType
    | none => true
  authenticate _ _ := pure s.outcome
  deferrable := s.deferrable

/-- What a numbered script is to do. -/
structure Part where
  judges : Bool
  passes : Bool
  /-- Whether its failure may be made good later. -/
  defers : Bool
  /-- The maintainer that vouches when it passes. -/
  voucher : Option Handle

/-- The script of a part, under the name `S` and its number. -/
def ofPart (deferrableType : ObjectType) (number : Nat) (p : Part) : Script :=
  let name := "S" ++ toString number
  let base :=
    if p.passes then passing name (p.voucher.toList.map fun key => { objectType := .mntner, key })
    else failing name
  { base with
    judges := if p.judges then none else some []
    deferrable := if p.defers then [deferrableType] else [] }

/-- The scripts of some parts, numbered from zero. -/
def ofParts (deferrableType : ObjectType) (parts : List Part) : List Script :=
  parts.mapIdx (ofPart deferrableType)

end Script

end RegistryConsent
