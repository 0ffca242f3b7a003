import PokerCoach.Proofs.Progress.EveryRow
import PokerCoach.Proofs.Progress.Sound

/-!
# The next gate

A gate opens when a skill of the gate before it has learned and enough skills there are graduated.
In between, the next gate stays locked for one of two reasons: too few skills are graduated, or
nothing has been learned at the gate yet, as for rows that onboarding or a backfill created.
-/

namespace PokerCoach

open Std Time

namespace PlayerRecord

/-- Whether nothing was learned yet of the skills of a gate. -/
def UntouchedAt (record : PlayerRecord) (gate : Gate) : Prop :=
  ∀ id ∈ gate.skillIds, ∀ row, record.row? id = some row → row.opportunities = 0

/-- The next gate is open wherever it is earned, unless nothing was learned that could open it. -/
def NoneMissed (record : PlayerRecord) (curriculum : Curriculum) : Prop :=
  ∀ gate ∈ curriculum.gates, ∀ next, record.isUnlocked gate.number = true →
    curriculum.nextGate? gate.number = some next → record.isUnlocked next.number = false →
    record.graduated gate < gate.requiredReliable.toNat ∨ record.UntouchedAt gate

variable {record : PlayerRecord} {curriculum : Curriculum} {frontier : Nat}

/-! ### New rows -/

def Untouched (record : PlayerRecord) : Prop :=
  ∀ id row, record.row? id = some row → row.opportunities = 0

theorem untouched_fresh (player : String) (now : Instant) : (fresh player now).Untouched :=
  everyRow_fresh player now

theorem Untouched.noneMissed (huntouched : record.Untouched) : record.NoneMissed curriculum :=
  fun _ _ _ _ _ _ => .inr fun id _ => huntouched id

theorem opportunities_addRows {rows : List Backfill} {now : Instant} {id : String} {row : SkillRow}
    (hrow : (record.addRows rows now).row? id = some row) (hnew : record.row? id = none) :
    row.opportunities = 0 := by
  rw [row?_addRows, hnew, Option.none_or, Option.map_eq_some_iff] at hrow
  obtain ⟨_, -, rfl⟩ := hrow
  rfl

theorem Untouched.setUp (huntouched : record.Untouched) (now : Instant) :
    (record.setUp curriculum now).Untouched :=
  EveryRow.setUp (fun _ _ _ => rfl) huntouched curriculum now

theorem untouched_of_onboard? {player : String} {now : Instant} {experience : Experience}
    {started : PlayerRecord} {rows : List Backfill}
    (honboard : (fresh player now).onboard? curriculum experience now = some (started, rows)) :
    started.Untouched :=
  everyRow_of_onboard? (fun _ _ _ => rfl) honboard

/-! ### Lessons -/

theorem graduated_congr {other : PlayerRecord} {gate : Gate}
    (hrows : ∀ id ∈ gate.skillIds, record.row? id = other.row? id) :
    record.graduated gate = other.graduated gate := by
  unfold graduated
  rw [List.filterMap_congr hrows]

section WellFormed

variable (hwell : curriculum.WellFormed)
include hwell

/-- A gate that has just been opened is untouched: none of its skills had a row before. -/
theorem Opened.untouchedAt_backfill (hopened : record.Opened curriculum frontier) {gate : Gate}
    (hgate : gate ∈ curriculum.gates) (hbeyond : frontier < gate.number.toNat) (number : UInt32)
    (now : Instant) :
    (((record.unlock number now).touch now).backfill curriculum now).1.UntouchedAt gate := by
  intro id hid row hrow
  obtain ⟨skill, hskill, rfl⟩ := List.mem_map.mp hid
  rw [row?_backfill] at hrow
  refine opportunities_addRows hrow ?_
  change record.row? skill.id = none
  refine Option.eq_none_iff_forall_not_mem.mpr fun old hold => ?_
  obtain ⟨owner, howner, hsame, hfrontier, -⟩ := hopened.rows _ old hold
  obtain rfl := hwell.eq_of_id_eq howner (List.mem_flatMap.mpr ⟨gate, hgate, hskill⟩) hsame
  rw [hwell.owner gate hgate owner hskill] at hfrontier
  omega

theorem row?_practice_of_gateOf? {gate owner : Gate} (hgate : gate ∈ curriculum.gates)
    {skill : Skill} (howner : curriculum.gateOf? skill.id = some owner) (hne : owner ≠ gate)
    (outcome : Outcome) (marginalCredit : Float) (now : Instant) {id : String}
    (hid : id ∈ gate.skillIds) :
    (record.practice skill outcome marginalCredit now).row? id = record.row? id := by
  refine row?_practice_of_ne (fun heq => hne ?_) outcome marginalCredit now
  obtain ⟨taught, htaught, rfl⟩ := List.mem_map.mp hid
  rw [heq, hwell.gateOf?_eq hgate htaught] at howner
  exact (Option.some.inj howner).symm

theorem NoneMissed.learn (hmissed : record.NoneMissed curriculum)
    (hsound : record.SoundAt curriculum frontier) {skill : Skill}
    (hskill : skill ∈ curriculum.skills) (hfrontier : skill.gate.toNat ≤ frontier)
    (outcome : Outcome) (marginalCredit : Float) (now : Instant) :
    (record.learn curriculum skill outcome marginalCredit now).NoneMissed curriculum := by
  have hpractice := hsound.toOpened.practice hwell hskill hfrontier outcome marginalCredit now
  intro gate hgate next hopen hnext hlocked
  unfold PlayerRecord.learn PlayerRecord.advance at hopen hlocked ⊢
  cases hearned : (record.practice skill outcome marginalCredit now).earnedGate? curriculum
      skill.id with
  | none =>
      rw [hearned] at hopen hlocked
      obtain ⟨owner, howner, htaught, -⟩ := hwell.exists_gate_of_skill hskill
      have hgateOf := hwell.gateOf?_eq howner htaught
      by_cases heq : owner = gate
      · subst heq
        exact .inl (graduated_lt_of_earnedGate? hearned hgateOf hnext hlocked)
      · have hrows (id : String) (hid : id ∈ gate.skillIds) :
            (record.practice skill outcome marginalCredit now).row? id = record.row? id :=
          row?_practice_of_gateOf? hwell hgate hgateOf heq outcome marginalCredit now hid
        rcases hmissed gate hgate next hopen hnext hlocked with hfew | huntouched
        · exact .inl (by rwa [graduated_congr hrows])
        · exact .inr fun id hid row hrow => huntouched id hid row (by rwa [← hrows id hid])
  | some number =>
      -- The frontier has moved on, to a gate all of whose rows are new.
      rw [hearned] at hopen hlocked
      obtain ⟨hnumber, hbounded, -⟩ :=
        hpractice.earnedGate?_eq_some hwell hskill hfrontier hearned
      have hopened := ((hpractice.unlock hnumber hbounded now).touch now).backfill hwell now
      have hgateNumber :=
        hopened.eq_frontier hwell (hopened.isUnlocked_iff.mp hopen).2 hnext hlocked
      exact .inr (hpractice.untouchedAt_backfill hwell hgate (by omega) number now)

end WellFormed

end PlayerRecord

end PokerCoach
