import PokerCoach.Session.Memory
import Mathlib.Data.List.Chain
import Mathlib.Data.List.Induction
import Mathlib.Logic.Function.Iterate
import Mathlib.Tactic.Common

/-!
# The cadence of coaching

A session knows of each skill how often coaching was shown and on which hand last. A game that asks
before it shows coaching keeps to the cadence of its session, in whatever order it plays the hands.
-/

namespace PokerCoach

open Std Time

theorem toNat_iterate_countUp (n : Nat) : (countUp^[n] 0).toNat = min n (UInt32.size - 1) := by
  induction n with
  | zero => rfl
  | succ n ih =>
      rw [Function.iterate_succ_apply', toNat_countUp, ih]
      omega

namespace Session

/-- What a game does with its session in the course of play. -/
inductive Call where
  | record (hand : UInt32) (evaluation : Evaluation)
  | maySurface (skill : String) (hand : UInt32)
  | noteSurfaced (skill : String) (hand : UInt32)

def perform (session : Session) : Call → Session
  | .record hand evaluation => (session.record hand evaluation).1
  | .maySurface _ _ => session
  | .noteSurfaced skill hand => session.noteSurfaced skill hand

def after (session : Session) (calls : List Call) : Session :=
  calls.foldl perform session

/-- Coaching is shown at a call only if the session has nothing against it. -/
def Allows (session : Session) : Call → Prop
  | .noteSurfaced skill hand => session.maySurface skill hand = true
  | _ => True

/-- The same at every call, each in the session that the calls before it have left. -/
def Permits (session : Session) : List Call → Prop
  | [] => True
  | call :: rest => session.Allows call ∧ Permits (session.perform call) rest

instance (session : Session) (call : Call) : Decidable (session.Allows call) :=
  match call with
  | .noteSurfaced skill hand => inferInstanceAs (Decidable (session.maySurface skill hand = true))
  | .record .. | .maySurface .. => inferInstanceAs (Decidable True)

instance instDecidablePermits (session : Session) :
    (calls : List Call) → Decidable (session.Permits calls)
  | [] => inferInstanceAs (Decidable True)
  | call :: rest =>
      have := instDecidablePermits (session.perform call) rest
      inferInstanceAs (Decidable (session.Allows call ∧ (session.perform call).Permits rest))

/-- The hand on which a call shows coaching for a skill. -/
def Call.shown? (skill : String) : Call → Option UInt32
  | .noteSurfaced other hand => if other = skill then some hand else none
  | _ => none

theorem Call.shown?_eq_some {skill : String} {call : Call} {hand : UInt32}
    (hshown : call.shown? skill = some hand) : call = .noteSurfaced skill hand := by
  cases call with
  | noteSurfaced other asked =>
      rw [shown?] at hshown
      split at hshown
      · rename_i hother
        cases hshown
        rw [hother]
      · cases hshown
  | _ => cases hshown

/-- The hands on which coaching for a skill was shown, in the order of the calls. -/
def shown (skill : String) (calls : List Call) : List UInt32 :=
  calls.filterMap (Call.shown? skill)

theorem after_concat (session : Session) (calls : List Call) (call : Call) :
    session.after (calls ++ [call]) = (session.after calls).perform call :=
  List.foldl_append

theorem shown_concat (skill : String) (calls : List Call) (call : Call) :
    shown skill (calls ++ [call]) = shown skill calls ++ (call.shown? skill).toList := by
  rw [shown, List.filterMap_append, ← shown]
  cases hcall : call.shown? skill <;> simp [hcall]

theorem permits_concat_iff (session : Session) (calls : List Call) (call : Call) :
    session.Permits (calls ++ [call]) ↔
      session.Permits calls ∧ (session.after calls).Allows call := by
  induction calls generalizing session with
  | nil => exact and_comm
  | cons first rest ih =>
      rw [List.cons_append, Permits, Permits, ih, and_assoc]
      rfl

/-! ### What a session knows of a skill -/

variable (session : Session) (skill : String) (hand : UInt32)

theorem cadence_perform (call : Call) : (session.perform call).cadence = session.cadence := by
  cases call with
  | record hand evaluation =>
      rw [perform, record]
      split <;> rfl
  | _ => rfl

theorem surfaces_perform (call : Call) :
    (session.perform call).surfaces[skill]? =
      match call.shown? skill with
      | none => session.surfaces[skill]?
      | some hand =>
          some
            { surfaced := countUp (session.surfaces[skill]?.getD {}).surfaced
              lastHand := some hand } := by
  cases call with
  | record hand evaluation =>
      rw [perform, record]
      split <;> rfl
  | maySurface => rfl
  | noteSurfaced other hand =>
      simp only [perform, noteSurfaced, Call.shown?, ExtTreeMap.getElem?_insert,
        Std.compare_eq_iff_eq]
      by_cases hother : other = skill
      · rw [if_pos hother, if_pos hother, hother]
      · rw [if_neg hother, if_neg hother]

theorem maySurface_congr {other : Session} (hcadence : other.cadence = session.cadence)
    (hsurfaces : other.surfaces[skill]? = session.surfaces[skill]?) :
    other.maySurface skill hand = session.maySurface skill hand := by
  rw [maySurface, maySurface, hcadence, hsurfaces]

section Fresh

variable (id owner : String) (cadence : Cadence) (now : Instant) (calls : List Call)

theorem cadence_after_start : ((start id owner cadence now).after calls).cadence = cadence := by
  induction calls using List.reverseRecOn with
  | nil => rfl
  | append_singleton before call ih => rw [after_concat, cadence_perform, ih]

theorem surfaces_after_start :
    ((start id owner cadence now).after calls).surfaces[skill]? =
      (shown skill calls).getLast?.map fun last =>
        { surfaced := countUp^[(shown skill calls).length] 0, lastHand := some last } := by
  induction calls using List.reverseRecOn with
  | nil => rfl
  | append_singleton before call ih =>
      rw [after_concat, surfaces_perform, shown_concat, ih]
      cases call.shown? skill with
      | none => rw [Option.toList_none, List.append_nil]
      | some hand =>
          rw [Option.toList_some, List.getLast?_concat, Option.map_some, List.length_append,
            List.length_singleton, Function.iterate_succ_apply']
          rcases hlast : (shown skill before).getLast? with _ | last
          · rw [List.getLast?_eq_none_iff.mp hlast]
            rfl
          · rfl

theorem maySurface_after_start_iff :
    ((start id owner cadence now).after calls).maySurface skill hand = true ↔
      (shown skill calls).length < cadence.maxSurfaces.toNat ∧
        (shown skill calls = [] ∨ cadence.minHandsBetween = 0 ∨
          ∃ last, (shown skill calls).getLast? = some last ∧
            last.toNat + cadence.minHandsBetween.toNat ≤ hand.toNat) := by
  rw [maySurface, surfaces_after_start, cadence_after_start]
  rcases hlast : (shown skill calls).getLast? with _ | last
  · rw [List.getLast?_eq_none_iff.mp hlast]
    simp [UInt32.lt_iff_toNat_lt]
  · have hsome : shown skill calls ≠ [] := fun hnone => by simp [hnone] at hlast
    -- The count stays at the greatest one, but no cadence asks for more than that.
    have hcount : countUp^[(shown skill calls).length] 0 < cadence.maxSurfaces ↔
        (shown skill calls).length < cadence.maxSurfaces.toNat := by
      have hmax := cadence.maxSurfaces.toNat_lt_size
      rw [UInt32.lt_iff_toNat_lt, toNat_iterate_countUp]
      omega
    have hgap : cadence.minHandsBetween.toNat ≤ hand.toNat - last.toNat ↔
        cadence.minHandsBetween = 0 ∨ last.toNat + cadence.minHandsBetween.toNat ≤ hand.toNat := by
      rw [← UInt32.toNat_inj, UInt32.toNat_zero]
      omega
    simp only [Option.map_some, Option.all_some, Bool.and_eq_true, decide_eq_true_eq, hcount, hgap,
      hsome, false_or, Option.some.injEq, exists_eq_left']

/-- What was shown with permission keeps to the cadence. -/
theorem shown_of_permits (hpermits : (start id owner cadence now).Permits calls) :
    (shown skill calls).length ≤ cadence.maxSurfaces.toNat ∧
      (0 < cadence.minHandsBetween → (shown skill calls).IsChain fun earlier later =>
        earlier < later ∧
          cadence.minHandsBetween.toNat ≤ later.toNat - earlier.toNat) := by
  induction calls using List.reverseRecOn with
  | nil => exact ⟨Nat.zero_le _, fun _ => .nil⟩
  | append_singleton before call ih =>
      obtain ⟨hbefore, hallows⟩ := (permits_concat_iff _ _ _).mp hpermits
      obtain ⟨hlength, hchain⟩ := ih hbefore
      rw [shown_concat]
      cases hshown : call.shown? skill with
      | none =>
          rw [Option.toList_none, List.append_nil]
          exact ⟨hlength, hchain⟩
      | some hand =>
          rw [Call.shown?_eq_some hshown] at hallows
          obtain ⟨hfewer, hapart⟩ := (maySurface_after_start_iff ..).mp hallows
          rw [Option.toList_some, List.length_append, List.length_singleton]
          refine ⟨hfewer, fun hmin => List.isChain_append.mpr ⟨hchain hmin, .singleton hand, ?_⟩⟩
          intro last hlast later hlater
          cases hlater
          have hpos := UInt32.lt_iff_toNat_lt.mp hmin
          rw [UInt32.toNat_zero] at hpos
          rcases hapart with hnone | hzero | ⟨recent, hrecent, hle⟩
          · rw [hnone] at hlast
            cases hlast
          · rw [hzero] at hpos
            exact absurd hpos (Nat.lt_irrefl 0)
          · rw [Option.mem_def, hrecent] at hlast
            cases hlast
            exact ⟨UInt32.lt_iff_toNat_lt.mpr (by omega), by omega⟩

end Fresh

/-- A session under any cadence and any calls. It has nothing against coaching for a skill on a hand
exactly if fewer times than allowed were used up and the last one is enough hands ago, and this it
tells the same after evaluations that are kept and coaching for other skills. A game that shows
coaching only with permission shows it for each skill as often as allowed at most and, if hands have
to pass, on hands that rise by that many each time. -/
theorem cadence_kept_with_permission (id owner : String) (cadence : Cadence) (now : Instant)
    (calls : List Call) :
    let session := (start id owner cadence now).after calls
    ((start id owner cadence now).Permits calls → ∀ skill,
      (shown skill calls).length ≤ cadence.maxSurfaces.toNat ∧
        (0 < cadence.minHandsBetween → (shown skill calls).IsChain fun earlier later =>
          earlier < later ∧
            cadence.minHandsBetween.toNat ≤ later.toNat - earlier.toNat)) ∧
    (∀ skill hand, session.maySurface skill hand = true ↔
      (shown skill calls).length < cadence.maxSurfaces.toNat ∧
        (shown skill calls = [] ∨ cadence.minHandsBetween = 0 ∨
          ∃ last, (shown skill calls).getLast? = some last ∧
            last.toNat + cadence.minHandsBetween.toNat ≤ hand.toNat)) ∧
    ∀ skill hand,
      (∀ played evaluation, (session.record played evaluation).1.maySurface skill hand =
        session.maySurface skill hand) ∧
      ∀ other played, other ≠ skill →
        (session.noteSurfaced other played).maySurface skill hand =
          session.maySurface skill hand := by
  intro session
  refine ⟨fun hpermits skill => shown_of_permits skill id owner cadence now calls hpermits,
    fun skill hand => maySurface_after_start_iff skill hand id owner cadence now calls,
    fun skill hand => ⟨fun played evaluation => ?_, fun other played hother => ?_⟩⟩
  · have hcall := session.surfaces_perform skill (.record played evaluation)
    exact session.maySurface_congr skill hand (session.cadence_perform (.record played evaluation))
      hcall
  · have hcall := session.surfaces_perform skill (.noteSurfaced other played)
    rw [Call.shown?, if_neg hother] at hcall
    exact session.maySurface_congr skill hand rfl hcall

/-- Three times for one skill, every other hand, with another skill and an earlier hand in between;
then no more. -/
theorem cadence_kept_with_permission_three_times :
    let fresh := start "s" "ana" { maxSurfaces := 3, minHandsBetween := 2 } .epoch
    let calls : List Call :=
      [.noteSurfaced "pot_odds_call" 1, .noteSurfaced "follow_through" 2,
        .maySurface "pot_odds_call" 2, .noteSurfaced "pot_odds_call" 3,
        .maySurface "pot_odds_call" 1, .noteSurfaced "pot_odds_call" 5]
    fresh.Permits calls ∧
      ([1, 3, 5] : List UInt32).IsChain (fun earlier later =>
        earlier < later ∧ 2 ≤ later.toNat - earlier.toNat) ∧
      (fresh.after calls).maySurface "pot_odds_call" 9 = false := by
  intro fresh calls
  have hpermits : fresh.Permits calls := by decide +kernel
  obtain ⟨hkept, hanswer, -⟩ :=
    cadence_kept_with_permission "s" "ana" { maxSurfaces := 3, minHandsBetween := 2 } .epoch calls
  refine ⟨hpermits, (hkept hpermits "pot_odds_call").2 (by decide), ?_⟩
  rw [Bool.eq_false_iff, ne_eq, hanswer]
  decide

end Session

end PokerCoach
