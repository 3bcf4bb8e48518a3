import RegistryConsent.Context
import RegistryConsent.Json.Fields
import RegistryConsent.Policy
import RegistryConsent.User

/-!
# The JSON forms of registry values

For each type the form that is written and the reading of it. Reading takes all that `Fields`
accepts; a policy and its lists of maintainers are laid over the defaults, everything else must be
complete.
-/

namespace RegistryConsent

open Json

/-- A handle is written as its spelling. -/
def Handle.toJson (h : Handle) : Json := .text h.spelling

/-- Reads a handle. -/
def Handle.ofJson? (j : Json) : Option Handle := (asText? j).map Handle.mk

/-- An object type is written as its name. -/
def ObjectType.toJson (t : ObjectType) : Json := .text t.name

/-- Reads an object type, whose name must be spelled exactly. -/
def ObjectType.ofJson? : Json → Option ObjectType := asNamed? ObjectType.all ObjectType.name

/-- An action is written as its name. -/
def Action.toJson (a : Action) : Json := .text a.name

/-- Reads an action, whose name must be spelled exactly. -/
def Action.ofJson? : Json → Option Action := asNamed? [.create, .modify, .delete] Action.name

/-- A principal is written as its name. -/
def Principal.toJson (p : Principal) : Json := .text p.name

/-- Reads a principal, whose name must be spelled exactly. -/
def Principal.ofJson? : Json → Option Principal := asNamed? Principal.all Principal.name

/-- An attribute is written with its name and value. -/
def Attribute.toJson (a : Attribute) : Json :=
  .record [("name", a.name.toJson), ("value", .text a.value)]

/-- Reads an attribute. -/
def Attribute.ofJson? (j : Json) : Option Attribute :=
  match slots? ["name", "value"] j with
  | some [name, value] => do return ⟨← required? Handle.ofJson? name, ← required? asText? value⟩
  | _ => none

/-- A record is written with its type, key and attributes. -/
def Record.toJson (r : Record) : Json :=
  .record [("object_type", r.objectType.toJson), ("key", r.key.toJson),
    ("attributes", .array (r.attributes.map Attribute.toJson))]

/-- Reads a record. -/
def Record.ofJson? (j : Json) : Option Record :=
  match slots? ["object_type", "key", "attributes"] j with
  | some [objectType, key, attributes] => do
    return ⟨← required? ObjectType.ofJson? objectType, ← required? Handle.ofJson? key,
      ← required? (asList? Attribute.ofJson?) attributes⟩
  | _ => none

/-- Reads a severity. -/
def Severity.ofJson? : Json → Option Severity := asNamed? [.error, .warning, .info] Severity.name

/-- A message is written with its severity and text. -/
def Message.toJson (m : Message) : Json :=
  .record [("kind", .text m.severity.name), ("text", .text m.text)]

/-- Reads a message. -/
def Message.ofJson? (j : Json) : Option Message :=
  match slots? ["kind", "text"] j with
  | some [kind, text] => do return ⟨← required? Severity.ofJson? kind, ← required? asText? text⟩
  | _ => none

/-- The word for a channel in JSON. -/
def Channel.word : Channel → String
  | .syncUpdates => "syncupdates"
  | .rest => "rest"
  | .email => "email"
  | .internal => "internal"

/-- Reads a channel. -/
def Channel.ofJson? : Json → Option Channel :=
  asNamed? [.syncUpdates, .rest, .email, .internal] Channel.word

/-- An origin is written with its channel and sender. -/
def Origin.toJson (o : Origin) : Json :=
  .record [("kind", .text o.channel.word), ("from", .text o.sender)]

/-- Reads an origin. -/
def Origin.ofJson? (j : Json) : Option Origin :=
  match slots? ["kind", "from"] j with
  | some [kind, sender] => do return ⟨← required? Channel.ofJson? kind, ← required? asText? sender⟩
  | _ => none

/-- An update number is written as a number. -/
def UpdateId.toJson (i : UpdateId) : Json := .natural i.value.toNat

/-- Reads an update number. -/
def UpdateId.ofJson? (j : Json) : Option UpdateId :=
  (asNatural? UInt64.size j).map fun n => ⟨.ofNat n⟩

/-- A public key is written as its bytes. -/
def PublicKey.toJson (k : PublicKey) : Json := .bytes k.bytes.toList

/-- Reads a public key. -/
def PublicKey.ofJson? (j : Json) : Option PublicKey := (asBytes? 32 j).map PublicKey.mk

/-- A password hash is written with the bytes of its salt and digest. -/
def PasswordHash.toJson (h : PasswordHash) : Json :=
  .record [("salt", .bytes h.salt.toList), ("digest", .bytes h.digest.toList)]

/-- Reads a password hash. -/
def PasswordHash.ofJson? (j : Json) : Option PasswordHash :=
  match slots? ["salt", "digest"] j with
  | some [salt, digest] => do
    return ⟨← required? (asBytes? 16) salt, ← required? (asBytes? 32) digest⟩
  | _ => none

/-- A user is written with name, password hash and types in order. -/
def User.toJson (u : User) : Json :=
  .record [("username", .text u.username), ("password_hash", u.password.toJson),
    ("object_types", .array (u.objectTypes.toList.map ObjectType.toJson))]

/-- Reads a user. -/
def User.ofJson? (j : Json) : Option User :=
  match slots? ["username", "password_hash", "object_types"] j with
  | some [username, password, types] => do
    return ⟨← required? asText? username, ← required? PasswordHash.ofJson? password,
      .ofList (← required? (asList? ObjectType.ofJson?) types)⟩
  | _ => none

/-- A subject is written with its three sets in order. -/
def Subject.toJson (s : Subject) : Json :=
  .record [("principals", .array (s.principals.toList.map Principal.toJson)),
    ("passed_authentications", .texts s.passed.toList),
    ("failed_authentications", .texts s.failed.toList)]

/-- The word for a status in JSON. -/
def Status.word : Status → String
  | .success => "success"
  | .failed => "failed"
  | .failedAuthentication => "failed_authentication"
  | .pendingAuthentication => "pending_authentication"

/-- A context is written with the subject of the last evaluation, or null. -/
def Context.toJson (c : Context) : Json :=
  .record [("update_id", c.updateId.toJson), ("status", .text c.status.word),
    ("messages", .array (c.messages.map Message.toJson)),
    ("subject", (c.subject.map Subject.toJson).getD .null)]

/-- A set of names is written in order. -/
def namesToJson (names : SortedSet Handle) : Json := .array (names.toList.map Handle.toJson)

/-- Reads a set of names, of which the first spelling counts. -/
def namesOfJson? (j : Json) : Option (SortedSet Handle) :=
  (asList? Handle.ofJson? j).map SortedSet.ofList

/-- Maintainers are written as one list of names for each principal. -/
def Maintainers.toJson (m : Maintainers) : Json :=
  .record [("power", namesToJson m.power), ("enduser", namesToJson m.enduser),
    ("alloc", namesToJson m.alloc), ("rs", namesToJson m.rs), ("enum", namesToJson m.enum),
    ("dbm", namesToJson m.dbm)]

/-- Reads maintainers; a list that is missing is empty. -/
def Maintainers.ofJson? (j : Json) : Option Maintainers :=
  match slots? ["power", "enduser", "alloc", "rs", "enum", "dbm"] j with
  | some [power, enduser, alloc, rs, enum, dbm] => do
    return ⟨← optional? .empty namesOfJson? power, ← optional? .empty namesOfJson? enduser,
      ← optional? .empty namesOfJson? alloc, ← optional? .empty namesOfJson? rs,
      ← optional? .empty namesOfJson? enum, ← optional? .empty namesOfJson? dbm⟩
  | _ => none

/-- A policy is written with all its fields. -/
def Policy.toJson (p : Policy) : Json :=
  .record [("trusted_ranges", .texts p.trustedRanges),
    ("restrict_maintainer_updates_to_trusted_network", .bool p.restrictToTrustedNetwork),
    ("max_passwords", .natural p.maxPasswords), ("maintainers", p.maintainers.toJson)]

/-- Reads a policy; a field that is missing has its default. -/
def Policy.ofJson? (j : Json) : Option Policy :=
  match slots? ["trusted_ranges", "restrict_maintainer_updates_to_trusted_network",
      "max_passwords", "maintainers"] j with
  | some [ranges, restrict, passwords, maintainers] => do
    let standard : Policy := {}
    return ⟨← optional? standard.trustedRanges (asList? asText?) ranges,
      ← optional? standard.restrictToTrustedNetwork asBool? restrict,
      ← optional? standard.maxPasswords (asNatural? UInt64.size) passwords,
      ← optional? standard.maintainers Maintainers.ofJson? maintainers⟩
  | _ => none

end RegistryConsent
