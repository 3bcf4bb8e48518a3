/-!
# Origins

Where an update came from: the channel and the address or sender on it.
-/

namespace RegistryConsent

/-- The way on which an update came in. -/
inductive Channel where
  /-- A form sent over the web. -/
  | syncUpdates
  | rest
  | email
  /-- A caller inside the registry, which outside input cannot name. -/
  | internal
deriving DecidableEq, Inhabited

/-- What messages call a channel. -/
def Channel.name : Channel → String
  | .syncUpdates => "sync update"
  | .rest => "rest api"
  | .email => "mail update"
  | .internal => "internal"

/-- The channel of an update and its sender there. -/
structure Origin where
  channel : Channel
  sender : String
deriving DecidableEq, Inhabited

namespace Origin

/-- The origin of the registry's own updates. -/
def ownCaller : Origin := ⟨.internal, "127.0.0.1"⟩

/-- Whether administrative operations may be tried on the channel at all: on all but mail. -/
def allowsAdministration (o : Origin) : Bool := o.channel != .email

/-- Whether override is granted without any proof. -/
def overridesByDefault (o : Origin) : Bool := o.channel == .internal

/-- The origin as a text. -/
def text (o : Origin) : String := o.channel.name ++ " from " ++ o.sender

end Origin

end RegistryConsent
