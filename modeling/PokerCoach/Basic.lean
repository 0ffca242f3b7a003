/-!
# Errors and counts

What can go wrong, and how it is told. Only the failures of keeping and reading records concern the
health of the storage.
-/

namespace PokerCoach

inductive Error where
  | storage (path cause : String)
  | serialization (message : String)
  | invalidState (message : String)
  | playerNotFound (player : String)
  | unknownSkill (skill : String)
  | definition (message : String)
  | config (message : String)
  | sessionNotFound (session : String)
  deriving DecidableEq, Repr

namespace Error

def message : Error → String
  | .storage path cause => s!"storage error at {path}: {cause}"
  | .serialization message => s!"serialization error: {message}"
  | .invalidState message => s!"invalid state: {message}"
  | .playerNotFound player => s!"player not found: {player}"
  | .unknownSkill skill => s!"unknown skill: {skill}"
  | .definition message => s!"definition error: {message}"
  | .config message => s!"config error: {message}"
  | .sessionNotFound session => s!"session not found: {session}"

def isStorage : Error → Bool
  | .storage _ _ | .serialization _ => true
  | _ => false

def alreadyHasProgress (player : String) : Error :=
  .invalidState s!"player '{player}' already has progress; onboarding runs once"

def sessionActive (session : String) : Error :=
  .invalidState s!"session '{session}' is already active"

end Error

/-- The result of an operation, or a safe value in place of its error: nothing that goes wrong here
may stop a game. -/
def failOpen {α : Type} (fallback : α) : Except Error α → α
  | .ok a => a
  | .error _ => fallback

/-! ### Counts

Counts of 32 bits, which stay at the greatest count once they have reached it. -/

/-- One more, up to the greatest count there is. -/
def countUp (n : UInt32) : UInt32 :=
  if n.toNat + 1 < UInt32.size then n + 1 else n

theorem toNat_countUp (n : UInt32) : (countUp n).toNat = min (n.toNat + 1) (UInt32.size - 1) := by
  have h := n.toNat_lt
  unfold countUp
  split
  · rename_i hlt
    rw [UInt32.toNat_add]
    simp [UInt32.size] at hlt ⊢
    omega
  · rename_i hlt
    simp [UInt32.size] at hlt ⊢
    omega

end PokerCoach
