/-!
# Streets

The betting rounds of a hand in their order, and one flag for each of them.
-/

namespace PokerCoach

inductive Street where
  | preflop
  | flop
  | turn
  | river
  deriving DecidableEq, Repr, Inhabited

namespace Street

def all : List Street := [.preflop, .flop, .turn, .river]

def rank : Street → Nat
  | .preflop => 0
  | .flop => 1
  | .turn => 2
  | .river => 3

instance : LE Street := ⟨fun s t => s.rank ≤ t.rank⟩

instance (s t : Street) : Decidable (s ≤ t) :=
  inferInstanceAs (Decidable (s.rank ≤ t.rank))

def previous? : Street → Option Street
  | .preflop => none
  | .flop => some .preflop
  | .turn => some .flop
  | .river => some .turn

def isPostflop : Street → Bool
  | .preflop => false
  | _ => true

def name : Street → String
  | .preflop => "preflop"
  | .flop => "flop"
  | .turn => "turn"
  | .river => "river"

theorem mem_all (s : Street) : s ∈ all := by cases s <;> decide

theorem rank_previous? {s t : Street} (h : t.previous? = some s) : s.rank + 1 = t.rank := by
  cases t <;> simp [previous?] at h <;> subst h <;> rfl

end Street

/-- One flag for each street. -/
structure StreetFlags where
  preflop : Bool := false
  flop : Bool := false
  turn : Bool := false
  river : Bool := false
  deriving DecidableEq, Repr, Inhabited

namespace StreetFlags

def get (flags : StreetFlags) : Street → Bool
  | .preflop => flags.preflop
  | .flop => flags.flop
  | .turn => flags.turn
  | .river => flags.river

def set (flags : StreetFlags) : Street → StreetFlags
  | .preflop => { flags with preflop := true }
  | .flop => { flags with flop := true }
  | .turn => { flags with turn := true }
  | .river => { flags with river := true }

def ofList (streets : List Street) : StreetFlags :=
  streets.foldl set {}

/-- Two flags on adjacent streets, neither of them after `upto`. -/
def anyConsecutive (flags : StreetFlags) (upto : Street) : Bool :=
  Street.all.any fun street =>
    decide (street ≤ upto) &&
      street.previous?.any fun before => flags.get before && flags.get street

@[simp, grind =]
theorem get_set (flags : StreetFlags) (s t : Street) :
    (flags.set s).get t = (decide (s = t) || flags.get t) := by
  cases s <;> cases t <;> simp [get, set]

theorem get_foldl_set (streets : List Street) (flags : StreetFlags) (t : Street) :
    (streets.foldl set flags).get t = (decide (t ∈ streets) || flags.get t) := by
  induction streets generalizing flags with
  | nil => simp
  | cons s streets ih => grind

@[simp, grind =]
theorem get_ofList (streets : List Street) (t : Street) :
    (ofList streets).get t = decide (t ∈ streets) := by
  have h : ({} : StreetFlags).get t = false := by cases t <;> rfl
  rw [ofList, get_foldl_set, h, Bool.or_false]

@[ext]
theorem ext_get {a b : StreetFlags} (h : ∀ s, a.get s = b.get s) : a = b := by
  cases a; cases b
  have h1 := h .preflop
  have h2 := h .flop
  have h3 := h .turn
  have h4 := h .river
  simp_all [get]

end StreetFlags

end PokerCoach
