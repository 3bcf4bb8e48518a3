import RegistryConsent.Handle
import RegistryConsent.InputError

/-!
# Object types

The thirteen classes of registry objects, ordered as they are declared.
-/

namespace RegistryConsent

/-- The class of a registry object. -/
inductive ObjectType where
  | mntner
  | person
  | role
  | organisation
  | inetnum
  | inet6num
  | route
  | route6
  | autNum
  | asSet
  | domain
  | irt
  | keyCert
deriving DecidableEq, Inhabited

namespace ObjectType

/-- Types are in the order in which they are listed. -/
instance : Ord ObjectType := ⟨compareOn ObjectType.ctorIdx⟩

/-- The order of types is that of their places, hence transitive. -/
instance : Std.TransOrd ObjectType := inferInstanceAs (Std.TransCmp (compareOn ObjectType.ctorIdx))

/-- Every object type, in order. -/
def all : List ObjectType :=
  [mntner, person, role, organisation, inetnum, inet6num, route, route6, autNum, asSet, domain, irt,
    keyCert]

/-- The name that opens a record of this type. -/
def name : ObjectType → String
  | mntner => "mntner"
  | person => "person"
  | role => "role"
  | organisation => "organisation"
  | inetnum => "inetnum"
  | inet6num => "inet6num"
  | route => "route"
  | route6 => "route6"
  | autNum => "aut-num"
  | asSet => "as-set"
  | domain => "domain"
  | irt => "irt"
  | keyCert => "key-cert"

/-- Reads a name, up to blanks at its ends and ASCII case. -/
def ofName (s : String) : Except InputError ObjectType :=
  match all.find? fun t => foldCase t.name == foldCase (Text.trim s) with
  | some t => .ok t
  | none => .error (.unknownObjectType s)

/-- Every object type is listed. -/
theorem mem_all (t : ObjectType) : t ∈ all := by cases t <;> decide

/-- A type is found by its name. -/
theorem ofName_name (t : ObjectType) : ofName t.name = .ok t := by cases t <;> rfl

/-- Types are told apart by their names. -/
theorem name_inj {t u : ObjectType} : t.name = u.name ↔ t = u := by
  refine ⟨fun same => ?_, congrArg name⟩
  have found := t.ofName_name
  rw [same, u.ofName_name] at found
  exact (Except.ok.inj found).symm

end ObjectType

end RegistryConsent
