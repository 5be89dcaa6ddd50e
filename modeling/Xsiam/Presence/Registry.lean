import Xsiam.Go.Value
import Xsiam.Lib.Redis

/-!
# The presence registry

`internal/presence/presence.go`: which agents are online, kept in Redis. An agent that
connects or sends a heartbeat is scored in the sorted set of its tenant and becomes a
member of the set of the instance it came through; an instance keeps a lease alive, and
one that has a set and no lease is dead.

All keys are texts in one name space, as the code builds them. An operation of the
registry is the commands it sends, a command that fails having no effect; what does not
reach the server at all has none either.
-/

namespace Xsiam

namespace Presence

open Go

/-- `Registry`, by what the server behind it stores. -/
abbrev Registry := Redis.Db GoString

/-! ### Constants -/

/-- `LeaseTTL`, in milliseconds. -/
def leaseTTL : ℕ := 90000

/-- `FBLeaseTTL`, in milliseconds. -/
def fbLeaseTTL : ℕ := 30000

/-- The key of the online agents of a tenant. -/
def keyOnline (tenantID : GoString) : GoString := str "agent:online:" ++ tenantID

/-- The key of the agents of an instance. -/
def keyFBSet (fbID : GoString) : GoString := str "agent:fb:" ++ fbID

/-- The key of the lease of an instance. -/
def keyFBLease (fbID : GoString) : GoString := str "agent:fb:lease:" ++ fbID

theorem keyFBSet_inj {f g : GoString} : keyFBSet f = keyFBSet g ↔ f = g :=
  List.append_right_inj _

/-- The key of a tenant is none of an instance. -/
theorem keyOnline_ne_keyFBSet (tenantID fbID : GoString) : keyOnline tenantID ≠ keyFBSet fbID := by
  intro h
  -- the two differ in the byte after `agent:`
  have htake := congrArg (List.take 7) h
  rw [keyOnline, keyFBSet, List.take_append_of_le_length (by decide),
    List.take_append_of_le_length (by decide)] at htake
  exact absurd htake (by decide)

namespace Registry

variable (reg : Registry)

/-! ### Agents -/

/-- `Touch` -/
def touch (tenantID agentKey fbID : GoString) : Registry :=
  let reg := (reg.zadd (keyOnline tenantID) agentKey reg.now).getD reg
  (reg.sadd (keyFBSet fbID) agentKey).getD reg

/-- `Remove` -/
def remove (tenantID agentKey fbID : GoString) : Registry :=
  let reg := (reg.zrem (keyOnline tenantID) [agentKey]).getD reg
  (reg.srem (keyFBSet fbID) agentKey).getD reg

/-- `BulkRemove` -/
def bulkRemove (tenantID : GoString) (agentKeys : List GoString) : Registry :=
  if agentKeys = [] then reg else (reg.zrem (keyOnline tenantID) agentKeys).getD reg

/-! ### Instances -/

/-- `RenewFB` -/
def renewFB (fbID : GoString) : Registry := reg.setEx (keyFBLease fbID) (str "1") fbLeaseTTL

/-- What the glob `agent:fb:[^l]*` matches. -/
def matchesFBGlob (key : GoString) : Bool :=
  match cutPrefix key (str "agent:fb:") with
  | some (b :: _) => b ≠ 0x6C
  | _ => false

/-- The keys kept of those scanned. -/
def isFBSetKey (key : GoString) : Bool :=
  9 < key.length && key.take 9 = str "agent:fb:" &&
    (key.length < 15 || (key.drop 9).take 5 ≠ str "lease")

/-- The scan of `DeadFBInstances`: the instances of one page of keys. -/
def scanFBSets (page : GoString → Bool) : List GoString :=
  ((reg.scan fun key => matchesFBGlob key && page key).filter isFBSetKey).map (·.drop 9)

/-- `AgentsForFB` -/
def agentsForFB (fbID : GoString) : Option (List GoString) := reg.smembers (keyFBSet fbID)

/-- `DeleteFBSet` -/
def deleteFBSet (fbID : GoString) : Registry := reg.del (keyFBSet fbID)

/-- The lease of an instance is live. -/
def leaseLive (fbID : GoString) : Bool := reg.present (keyFBLease fbID)

/-- An agent is a member of the set of an instance. -/
def ownedBy (agentKey fbID : GoString) : Bool := reg.sismember (keyFBSet fbID) agentKey

/-- The score of an agent among the online agents of a tenant. -/
def score (tenantID agentKey : GoString) : Option ℕ := reg.zscore (keyOnline tenantID) agentKey

/-- `IsOnline` -/
def isOnline (tenantID agentKey : GoString) : Bool :=
  match reg.score tenantID agentKey with
  | none => false
  | some at_ => reg.now ≤ at_ + leaseTTL

end Registry

end Presence

end Xsiam
