import RegistryConsent.Authority
import RegistryConsent.Store.Memory
import RegistryConsent.Strategy.MntBy
import RegistryConsent.Strategy.RouteOrigin

/-!
# Trials

A small registry in memory with a policy, to try authorities with: two trusted ranges, one power
maintainer and one database maintainer.
-/

namespace RegistryConsent

/-- A registry in memory and a policy for it. -/
structure Trial where
  store : MemoryStore := .empty
  policy : Policy :=
    { trustedRanges := ["10.0.0.0/8", "2001:db8::/32"]
      maintainers :=
        { power := .single ⟨"RIR-POWER-MNT"⟩
          dbm := .single ⟨"RIR-DBM-MNT"⟩ } }

namespace Trial

/-- An origin inside the trusted ranges. -/
def trustedOrigin : Origin := ⟨.syncUpdates, "10.1.2.3"⟩

/-- An origin outside the trusted ranges. -/
def untrustedOrigin : Origin := ⟨.syncUpdates, "203.0.113.7"⟩

/-- A maintainer that maintains itself and has the given `auth` line. -/
def maintainer (name line : String) : Record :=
  { objectType := .mntner, key := ⟨name⟩,
    attributes := [⟨Record.auth, line⟩, ⟨Record.mntBy, name⟩] }

/-- An autonomous system under a maintainer. -/
def autNum (name maintainer : String) : Record :=
  { objectType := .autNum, key := ⟨name⟩, attributes := [⟨Record.mntBy, maintainer⟩] }

/-- A route from an autonomous system under a maintainer. -/
def route (block origin maintainer : String) : Record :=
  { objectType := .route, key := ⟨block ++ origin⟩,
    attributes := [⟨⟨"route"⟩, block⟩, ⟨Record.origin, origin⟩, ⟨Record.mntBy, maintainer⟩] }

/-- Stores a record. -/
def add (t : Trial) (r : Record) : Trial := { t with store := t.store.putRecord r }

/-- Stores an override user. -/
def addUser (t : Trial) (u : User) : Trial := { t with store := t.store.putUser u }

/-- The strategies that a registry runs. -/
def standardStrategies : List Strategy := [.mntBy, .routeOrigin]

/-- The standard strategies have different names. -/
theorem nodup_standardStrategies : (standardStrategies.map (·.name)).Nodup := by decide

/-- The authority of the policy with the standard strategies. -/
def standardAuthority (t : Trial) : Except SetupError Authority :=
  Authority.make t.policy standardStrategies

end Trial

end RegistryConsent
