import PokerCoach.Proofs.Curriculum.WellFormed
import PokerCoach.Proofs.Progress.Extension
import Mathlib.Algebra.Group.Nat.Defs

/-!
# Sound records

What every record is like that an engine makes of a well-formed curriculum: the gates are open up to
one of them, exactly the skills of the open gates have rows, and each row counts what went into it.
Setting up, onboarding and every lesson on a skill of an open gate make sound records of sound ones.
-/

namespace PokerCoach

open Std Time

/-! ### Rows -/

namespace SkillRow

variable {α : Type}

/-- The window and the count of a row go back to one number of outcomes, and no move came early. -/
structure Sound (row : SkillRow) (rule : EvidenceRule α) : Prop where
  applicable : ∀ outcome ∈ row.window, outcome.isApplicable
  counted : ∃ n, row.opportunities.toNat = min n (2 ^ 32 - 1) ∧
    row.window.length = min n rule.windowSize.toNat
  unsettled : row.opportunities < rule.minOpportunities → row.lastTransitionAt = none

theorem sound_fresh (skill : String) (level : Mastery) (now : Instant) (rule : EvidenceRule α) :
    (fresh skill level now).Sound rule where
  applicable := fun _ hmem => absurd hmem List.not_mem_nil
  counted := ⟨0, by simp [fresh]⟩
  unsettled _ := rfl

variable {row : SkillRow} {rule : EvidenceRule α}

theorem Sound.push (hsound : row.Sound rule) {outcome : Outcome} (happlies : outcome.isApplicable)
    (hwindow : rule.windowSize ≠ 0) (now : Instant) :
    (row.push outcome rule.windowSize now).Sound rule where
  applicable other hmem := by
    rcases List.mem_append.mp (List.mem_of_mem_drop hmem) with hmem | hmem
    · exact hsound.applicable other hmem
    · rwa [List.mem_singleton.mp hmem]
  counted := by
    obtain ⟨n, hcount, hlength⟩ := hsound.counted
    have hpos : rule.windowSize.toNat ≠ 0 := fun hzero => hwindow (UInt64.toNat_inj.mp hzero)
    refine ⟨n + 1, ?_, ?_⟩
    · simp only [SkillRow.push, toNat_countUp, hcount, UInt32.size]
      omega
    · simp only [SkillRow.push, length_latest, List.length_append, List.length_singleton, hlength]
      omega
  unsettled hfew := by
    refine hsound.unsettled (UInt32.lt_of_le_of_lt ?_ hfew)
    exact le_countUp row.opportunities

variable [Share α]

theorem Sound.settle (hsound : row.Sound rule) (marginalCredit : α) (now : Instant) :
    (row.settle rule marginalCredit now).1.Sound rule := by
  unfold SkillRow.settle
  dsimp only
  split
  · exact hsound
  · rename_i hmoves
    -- With too few opportunities the verdict is the level there was.
    refine ⟨hsound.applicable, hsound.counted, fun hfew => absurd ?_ hmoves⟩
    simp only [verdict, Mastery.next, show row.opportunities < rule.minOpportunities from hfew,
      decide_true, Bool.true_or, if_true]

theorem Sound.record (hsound : row.Sound rule) (hwindow : rule.windowSize ≠ 0) (outcome : Outcome)
    (marginalCredit : α) (now : Instant) :
    (row.record outcome rule marginalCredit now).1.Sound rule := by
  unfold SkillRow.record
  split
  · rename_i happlies
    exact (hsound.push happlies hwindow now).settle marginalCredit now
  · exact hsound

end SkillRow

/-! ### Records -/

namespace PlayerRecord

/-- The gates are open up to the frontier, and every row is of a skill taught there or before. -/
structure Opened (record : PlayerRecord) (curriculum : Curriculum) (frontier : Nat) : Prop where
  bounded : frontier ≤ curriculum.gates.length
  entries : ∀ gate : UInt32, record.gates[gate]?.isSome ↔ 1 ≤ gate.toNat ∧ gate.toNat ≤ frontier
  opened : ∀ (gate : UInt32) (entry : GateEntry), record.gates[gate]? = some entry → entry.unlocked
  rows : ∀ id row, record.row? id = some row → ∃ skill ∈ curriculum.skills,
    skill.id = id ∧ skill.gate.toNat ≤ frontier ∧ row.skill = id ∧ row.Sound skill.evidence

/-- A record whose first gate is open and in which no row is missing. -/
structure SoundAt (record : PlayerRecord) (curriculum : Curriculum) (frontier : Nat) : Prop
    extends record.Opened curriculum frontier where
  entry : 1 ≤ frontier
  complete : record.missing curriculum = []

def Sound (record : PlayerRecord) (curriculum : Curriculum) : Prop :=
  ∃ frontier, record.SoundAt curriculum frontier

variable {record : PlayerRecord} {curriculum : Curriculum} {frontier : Nat}

namespace Opened

theorem isUnlocked_iff (hopened : record.Opened curriculum frontier) {gate : UInt32} :
    record.isUnlocked gate ↔ 1 ≤ gate.toNat ∧ gate.toNat ≤ frontier := by
  rw [← hopened.entries, isUnlocked]
  cases hentry : record.gates[gate]? with
  | none => simp
  | some entry => simpa using hopened.opened gate entry hentry

theorem touch (hopened : record.Opened curriculum frontier) (now : Instant) :
    (record.touch now).Opened curriculum frontier :=
  ⟨hopened.bounded, hopened.entries, hopened.opened, hopened.rows⟩

theorem unlock (hopened : record.Opened curriculum frontier) {gate : UInt32}
    (hnext : gate.toNat = frontier + 1) (hbounded : frontier + 1 ≤ curriculum.gates.length)
    (now : Instant) : (record.unlock gate now).Opened curriculum (frontier + 1) where
  bounded := hbounded
  entries other := by
    simp only [PlayerRecord.unlock, setGate, ExtTreeMap.getElem?_insert, Std.compare_eq_iff_eq]
    split
    · rename_i heq
      subst heq
      simp only [Option.isSome_some, true_iff]
      omega
    · rename_i hne
      rw [hopened.entries]
      have hother : other.toNat ≠ frontier + 1 := fun heq =>
        hne (UInt32.toNat_inj.mp (hnext.trans heq.symm))
      omega
  opened other entry hentry := by
    simp only [PlayerRecord.unlock, setGate, ExtTreeMap.getElem?_insert, Std.compare_eq_iff_eq]
      at hentry
    split at hentry
    · cases hentry
      unfold GateEntry.unlock
      split
      · assumption
      · rfl
    · exact hopened.opened other entry hentry
  rows id row hrow := by
    obtain ⟨skill, hskill, hid, hgate, hrest⟩ := hopened.rows id row hrow
    exact ⟨skill, hskill, hid, Nat.le_succ_of_le hgate, hrest⟩

theorem addRows (hopened : record.Opened curriculum frontier) {rows : List Backfill}
    (hrows : ∀ row ∈ rows, ∃ skill ∈ curriculum.skills,
      skill.id = row.skill ∧ skill.gate.toNat ≤ frontier) (now : Instant) :
    (record.addRows rows now).Opened curriculum frontier where
  bounded := hopened.bounded
  entries gate := by
    rw [addRows_eq]
    exact hopened.entries gate
  opened gate entry hentry := by
    rw [addRows_eq] at hentry
    exact hopened.opened gate entry hentry
  rows id row hrow := by
    rw [row?_addRows] at hrow
    cases hold : record.row? id with
    | some old =>
        rw [hold, Option.some_or] at hrow
        cases hrow
        exact hopened.rows id _ hold
    | none =>
        rw [hold, Option.none_or] at hrow
        obtain ⟨new, hfind, rfl⟩ := Option.map_eq_some_iff.mp hrow
        obtain ⟨skill, hskill, hid, hgate⟩ := hrows new (List.mem_of_find?_eq_some hfind)
        have hnew : new.skill = id := by simpa using List.find?_some hfind
        exact ⟨skill, hskill, hid.trans hnew, hgate, rfl, SkillRow.sound_fresh id new.level now _⟩

section WellFormed

variable (hopened : record.Opened curriculum frontier) (hwell : curriculum.WellFormed)
include hopened hwell

theorem backfill (now : Instant) :
    (record.backfill curriculum now).1.Opened curriculum frontier := by
  unfold PlayerRecord.backfill
  split
  · exact hopened
  · refine (hopened.addRows (fun row hmem => ?_) now).touch now
    obtain ⟨gate, hgate, hopen, -, hskill, -⟩ := (record.mem_missing_iff curriculum).mp hmem
    obtain ⟨skill, hskill, hid⟩ := List.mem_map.mp hskill
    refine ⟨skill, List.mem_flatMap.mpr ⟨gate, hgate, hskill⟩, hid, ?_⟩
    rw [hwell.owner gate hgate skill hskill]
    exact (hopened.isUnlocked_iff.mp hopen).2

theorem sound_rowFor {skill : Skill} (hskill : skill ∈ curriculum.skills) (now : Instant) :
    (record.rowFor skill.id now).skill = skill.id ∧
      (record.rowFor skill.id now).Sound skill.evidence := by
  unfold rowFor
  cases hrow : record.row? skill.id with
  | none => exact ⟨rfl, SkillRow.sound_fresh _ _ now _⟩
  | some row =>
      obtain ⟨owner, howner, hid, -, hname, hsound⟩ := hopened.rows _ row hrow
      obtain rfl := hwell.eq_of_id_eq howner hskill hid
      exact ⟨hname, hsound⟩

theorem practice {skill : Skill} (hskill : skill ∈ curriculum.skills)
    (hgate : skill.gate.toNat ≤ frontier) (outcome : Outcome) (marginalCredit : Float)
    (now : Instant) :
    (record.practice skill outcome marginalCredit now).Opened curriculum frontier where
  bounded := hopened.bounded
  entries := hopened.entries
  opened := hopened.opened
  rows id row hrow := by
    simp only [PlayerRecord.practice, row?_touch, row?_setRow] at hrow
    split at hrow
    · rename_i heq
      subst heq
      cases hrow
      obtain ⟨hname, hsound⟩ := hopened.sound_rowFor hwell hskill now
      refine ⟨skill, hskill, rfl, hgate, by rw [SkillRow.skill_record, hname], ?_⟩
      exact hsound.record (hwell.window skill hskill) outcome marginalCredit now
    · exact hopened.rows id row hrow

end WellFormed

end Opened

/-! ### Gates that are earned -/

theorem earnedGate?_eq_some {skill : String} {number : UInt32}
    (hearned : record.earnedGate? curriculum skill = some number) :
    ∃ gate next, curriculum.gateOf? skill = some gate ∧
      curriculum.nextGate? gate.number = some next ∧ next.number = number ∧
      record.isUnlocked number = false ∧ gate.requiredReliable.toNat ≤ record.graduated gate := by
  simp only [earnedGate?, Option.bind_eq_bind, Option.bind_eq_some_iff] at hearned
  obtain ⟨gate, hgate, next, hnext, hearned⟩ := hearned
  split at hearned
  · cases hearned
  · rename_i hearns
    cases hearned
    simp only [not_or, Bool.not_eq_true, Nat.not_lt] at hearns
    exact ⟨gate, next, hgate, hnext, rfl, hearns⟩

theorem graduated_lt_of_earnedGate? {skill : String} {gate next : Gate}
    (hearned : record.earnedGate? curriculum skill = none)
    (hgate : curriculum.gateOf? skill = some gate)
    (hnext : curriculum.nextGate? gate.number = some next)
    (hlocked : record.isUnlocked next.number = false) :
    record.graduated gate < gate.requiredReliable.toNat := by
  simpa [earnedGate?, hgate, hnext, hlocked] using hearned

theorem SoundAt.isSetUp (hsound : record.SoundAt curriculum frontier) :
    record.IsSetUp curriculum :=
  ⟨hsound.isUnlocked_iff.mpr ⟨Nat.le_refl 1, hsound.entry⟩, hsound.complete⟩

theorem Sound.setUp_eq (hsound : record.Sound curriculum) (now : Instant) :
    record.setUp curriculum now = record := by
  obtain ⟨_, hsound⟩ := hsound
  exact hsound.isSetUp.setUp_eq now

theorem Opened.soundAt (hopened : record.Opened curriculum frontier)
    (hset : record.IsSetUp curriculum) : record.SoundAt curriculum frontier :=
  { hopened with
    entry := (hopened.isUnlocked_iff.mp hset.1).2
    complete := hset.2 }

section WellFormed

variable (hwell : curriculum.WellFormed)
include hwell

/-- Exactly the skills taught at the frontier or before have rows. -/
theorem SoundAt.isSome_row?_iff (hsound : record.SoundAt curriculum frontier) {id : String} :
    (record.row? id).isSome ↔
      ∃ gate ∈ curriculum.gates, gate.number.toNat ≤ frontier ∧ id ∈ gate.skillIds := by
  constructor
  · intro hrow
    obtain ⟨row, hrow⟩ := Option.isSome_iff_exists.mp hrow
    obtain ⟨skill, hskill, rfl, hfrontier, -⟩ := hsound.rows id row hrow
    obtain ⟨gate, hgate, hmem, hnumber⟩ := hwell.exists_gate_of_skill hskill
    exact ⟨gate, hgate, hnumber ▸ hfrontier, List.mem_map_of_mem hmem⟩
  · rintro ⟨gate, hgate, hfrontier, hid⟩
    have hopen := hsound.isUnlocked_iff.mpr ⟨(hwell.number_le hgate).1, hfrontier⟩
    exact (missing_eq_nil_iff record curriculum).mp hsound.complete gate hgate hopen id hid

theorem Opened.sound_row (hopened : record.Opened curriculum frontier) {id : String}
    {row : SkillRow} (hrow : record.row? id = some row) :
    row.skill = id ∧ ∃ skill, curriculum.skill? id = some skill ∧ row.Sound skill.evidence := by
  obtain ⟨skill, hskill, rfl, -, hname, hsound⟩ := hopened.rows id row hrow
  exact ⟨hname, skill, hwell.skill?_eq hskill, hsound⟩

/-- Of all open gates, the next one is locked after the frontier only. -/
theorem Opened.eq_frontier (hopened : record.Opened curriculum frontier) {gate next : Gate}
    (hopen : gate.number.toNat ≤ frontier)
    (hnext : curriculum.nextGate? gate.number = some next)
    (hlocked : record.isUnlocked next.number = false) : gate.number.toNat = frontier := by
  have hnumber := (hwell.nextGate?_eq_some hnext).2
  by_contra hne
  have hnextOpen : record.isUnlocked next.number = true :=
    hopened.isUnlocked_iff.mpr ⟨by omega, by omega⟩
  exact Bool.false_ne_true (hlocked.symm.trans hnextOpen)

/-- The gate that a skill earns is the one after the frontier, and its own gate the frontier. -/
theorem Opened.earnedGate?_eq_some (hopened : record.Opened curriculum frontier) {skill : Skill}
    (hskill : skill ∈ curriculum.skills) (hgate : skill.gate.toNat ≤ frontier) {number : UInt32}
    (hearned : record.earnedGate? curriculum skill.id = some number) :
    number.toNat = frontier + 1 ∧ frontier + 1 ≤ curriculum.gates.length ∧
      skill.gate.toNat = frontier := by
  obtain ⟨gate, next, hgateOf, hnext, rfl, hlocked, -⟩ := PlayerRecord.earnedGate?_eq_some hearned
  obtain ⟨owner, howner, hmem, hnumber⟩ := hwell.exists_gate_of_skill hskill
  cases hgateOf.symm.trans (hwell.gateOf?_eq howner hmem)
  obtain ⟨hnextMem, hnextNumber⟩ := hwell.nextGate?_eq_some hnext
  have hbounds := hwell.number_le hnextMem
  rw [hnumber] at hgate ⊢
  have hfrontier := hopened.eq_frontier hwell hgate hnext hlocked
  exact ⟨by omega, by omega, hfrontier⟩

theorem Opened.advance (hopened : record.Opened curriculum frontier) {skill : Skill}
    (hskill : skill ∈ curriculum.skills) (hgate : skill.gate.toNat ≤ frontier) (now : Instant) :
    ∃ reached, frontier ≤ reached ∧
      (record.advance curriculum skill.id now).Opened curriculum reached := by
  unfold PlayerRecord.advance
  cases hearned : record.earnedGate? curriculum skill.id with
  | none => exact ⟨frontier, Nat.le_refl _, hopened⟩
  | some number =>
      obtain ⟨hnumber, hbounded, -⟩ := hopened.earnedGate?_eq_some hwell hskill hgate hearned
      have hnext := (hopened.unlock hnumber hbounded now).touch now
      exact ⟨frontier + 1, Nat.le_succ _, hnext.backfill hwell now⟩

theorem ComesUp.isUnlocked {id : String} (hcomes : record.ComesUp curriculum id) {skill : Skill}
    (hskill : curriculum.skill? id = some skill) : record.isUnlocked skill.gate = true := by
  obtain ⟨candidate, hcandidate, rfl, hopen⟩ := hcomes
  cases (hwell.skill?_eq hcandidate).symm.trans hskill
  exact hopen

theorem exists_row_of_comesUp (hmissing : record.missing curriculum = []) {id : String}
    (hcomes : record.ComesUp curriculum id) : ∃ row, record.row? id = some row := by
  obtain ⟨skill, hskill, rfl, hopen⟩ := hcomes
  obtain ⟨gate, hgate, hmem, hnumber⟩ := hwell.exists_gate_of_skill hskill
  rw [hnumber] at hopen
  exact Option.isSome_iff_exists.mp <|
    (missing_eq_nil_iff record curriculum).mp hmissing gate hgate hopen skill.id
      (List.mem_map_of_mem hmem)

/-- A skill that comes up has a row of its name. -/
theorem Sound.exists_row (hsound : record.Sound curriculum) {id : String}
    (hcomes : record.ComesUp curriculum id) :
    ∃ row, record.row? id = some row ∧ row.skill = id := by
  obtain ⟨frontier, hsound⟩ := hsound
  obtain ⟨row, hrow⟩ := exists_row_of_comesUp hwell hsound.isSetUp.2 hcomes
  exact ⟨row, hrow, (hsound.sound_row hwell hrow).1⟩

theorem Sound.learn (hsound : record.Sound curriculum) {skill : Skill}
    (hskill : curriculum.skill? skill.id = some skill)
    (hcomes : record.ComesUp curriculum skill.id) (outcome : Outcome) (marginalCredit : Float)
    (now : Instant) :
    (record.learn curriculum skill outcome marginalCredit now).Sound curriculum := by
  obtain ⟨frontier, hsound⟩ := hsound
  have hmem := (Curriculum.skill?_eq_some hskill).1
  have hgate := (hsound.isUnlocked_iff.mp (hcomes.isUnlocked hwell hskill)).2
  have hpractice := hsound.toOpened.practice hwell hmem hgate outcome marginalCredit now
  obtain ⟨reached, -, hlearned⟩ := hpractice.advance hwell hmem hgate now
  exact ⟨reached, hlearned.soundAt (hsound.isSetUp.learn now skill outcome marginalCredit)⟩

/-! ### New records -/

omit hwell in
theorem opened_fresh (player : String) (now : Instant) :
    (fresh player now).Opened curriculum 0 where
  bounded := Nat.zero_le _
  entries gate := by
    simp only [fresh, ExtTreeMap.getElem?_empty, Option.isSome_none, Bool.false_eq_true, false_iff]
    omega
  opened gate entry hentry := by simp [fresh] at hentry
  rows id row hrow := by simp [fresh, row?] at hrow

/-- Setting up a new record, or one that is sound, gives a sound one. -/
theorem Opened.setUp (hopened : record.Opened curriculum frontier)
    (hgates : curriculum.gates ≠ []) (now : Instant) :
    (record.setUp curriculum now).Sound curriculum := by
  have hset := record.isSetUp_setUp curriculum now
  unfold PlayerRecord.setUp ensureEntryGate at hset ⊢
  split at hset
  · rename_i hopen
    rw [if_pos hopen]
    exact ⟨frontier, (hopened.backfill hwell now).soundAt hset⟩
  · rename_i hlocked
    rw [if_neg hlocked]
    have hzero : frontier = 0 := by
      have hbelow : ¬ 1 ≤ frontier := fun hle =>
        hlocked (hopened.isUnlocked_iff.mpr ⟨Nat.le_refl 1, hle⟩)
      omega
    subst hzero
    have hfirst : 0 + 1 ≤ curriculum.gates.length := List.length_pos_iff.mpr hgates
    have hentry : ((record.unlock 1 now).touch now).Opened curriculum 1 :=
      (hopened.unlock rfl hfirst now).touch now
    exact ⟨1, (hentry.backfill hwell now).soundAt hset⟩

omit hwell in
theorem Opened.foldl_unlock (hopened : record.Opened curriculum frontier) {gates : List Gate}
    (hnumbers : gates.map (·.number.toNat) = List.range' (frontier + 1) gates.length)
    (hbounded : frontier + gates.length ≤ curriculum.gates.length) (now : Instant) :
    (gates.foldl (fun record gate => record.unlock gate.number now) record).Opened curriculum
      (frontier + gates.length) := by
  induction gates generalizing record frontier with
  | nil => exact hopened
  | cons gate rest ih =>
      simp only [List.map_cons, List.length_cons, List.range'_succ, List.cons.injEq] at hnumbers
      rw [List.length_cons] at hbounded
      have hfirst := hopened.unlock hnumbers.1 (by omega) now
      have hrest := ih hfirst hnumbers.2 (by omega)
      rw [List.foldl_cons, List.length_cons, Nat.add_comm rest.length 1, ← Nat.add_assoc]
      exact hrest

omit hwell in
theorem one_le_startGate (experience : Experience) : 1 ≤ startGate curriculum experience := by
  have hmax (number : UInt32) : 1 ≤ max number 1 := by
    show 1 ≤ if number ≤ 1 then 1 else number
    split
    · exact UInt32.le_refl 1
    · rename_i hbelow
      exact UInt32.le_of_lt (UInt32.not_le.mp hbelow)
  cases experience with
  | beginner => exact UInt32.le_refl 1
  | intermediate => exact Std.le_min_iff.mpr ⟨by decide, hmax _⟩
  | advanced => exact hmax _

/-- The gates that a new player finds open are the first few, and at least one. -/
theorem startGates_eq_take (hgates : curriculum.gates ≠ []) {start : UInt32} (hstart : 1 ≤ start) :
    ∃ count, 1 ≤ count ∧ count ≤ curriculum.gates.length ∧
      curriculum.gates.takeWhile (fun gate => decide (gate.number ≤ start)) =
        curriculum.gates.take count := by
  have hinitial : curriculum.gates.takeWhile (fun gate => decide (gate.number ≤ start)) <+:
      curriculum.gates := List.takeWhile_prefix _
  refine ⟨_, ?_, hinitial.length_le, List.prefix_iff_eq_take.mp hinitial⟩
  obtain ⟨first, rest, hcons⟩ := List.exists_cons_of_ne_nil hgates
  have hfirst : first.number = 1 := by
    have hnumbers := hwell.numbers
    rw [hcons, List.map_cons, List.length_cons, List.range'_succ] at hnumbers
    exact UInt32.toNat_inj.mp (List.cons.inj hnumbers).1
  simp [hcons, hfirst, hstart]

omit hwell in
theorem mem_startRows_iff {start : UInt32} {row : Backfill} :
    row ∈ startRows curriculum start ↔
      ∃ gate ∈ curriculum.gates.takeWhile (fun gate => decide (gate.number ≤ start)),
        ∃ id ∈ gate.skillIds, ⟨id, gate.number, startLevel start gate.number⟩ = row := by
  simp only [startRows, List.mem_flatMap, List.mem_map]

/-- A new player gets rows of exactly the skills of the gates that are open in the beginning. -/
theorem exists_startRow_iff {start : UInt32} {count : Nat}
    (hcount : count ≤ curriculum.gates.length)
    (hopens : curriculum.gates.takeWhile (fun gate => decide (gate.number ≤ start)) =
      curriculum.gates.take count) {id : String} :
    (∃ row ∈ startRows curriculum start, row.skill = id) ↔
      ∃ gate ∈ curriculum.gates, gate.number.toNat ≤ count ∧ id ∈ gate.skillIds := by
  simp only [mem_startRows_iff, hopens]
  constructor
  · rintro ⟨_, ⟨gate, htake, id, hid, rfl⟩, rfl⟩
    have hgate := List.mem_of_mem_take htake
    exact ⟨gate, hgate, (hwell.mem_take_iff hcount hgate).mp htake, hid⟩
  · rintro ⟨gate, hgate, hnumber, hid⟩
    have htake := (hwell.mem_take_iff hcount hgate).mpr hnumber
    exact ⟨_, ⟨gate, htake, id, hid, rfl⟩, rfl⟩

/-- A new player finds open the gates that are opened in the beginning. -/
theorem opened_of_onboard? {player : String} {now : Instant} {experience : Experience}
    {started : PlayerRecord} {rows : List Backfill} {count : Nat}
    (hcount : count ≤ curriculum.gates.length)
    (hopens : curriculum.gates.takeWhile
      (fun gate => decide (gate.number ≤ startGate curriculum experience)) =
        curriculum.gates.take count)
    (honboard : (fresh player now).onboard? curriculum experience now = some (started, rows)) :
    started.Opened curriculum count := by
  unfold PlayerRecord.onboard? at honboard
  split at honboard
  · cases honboard
  generalize startGate curriculum experience = start at honboard hopens
  cases honboard
  have hlength : (curriculum.gates.take count).length = count := by
    rw [List.length_take, Nat.min_eq_left hcount]
  have hfresh : (fresh player now).Opened curriculum 0 := opened_fresh player now
  have hopened := hfresh.foldl_unlock (by rw [hlength, hwell.numbers_take hcount])
    (by rwa [hlength, Nat.zero_add]) now
  rw [hlength, Nat.zero_add, ← hopens] at hopened
  have hrows (row : Backfill) (hmem : row ∈ startRows curriculum start) :
      ∃ skill ∈ curriculum.skills, skill.id = row.skill ∧ skill.gate.toNat ≤ count := by
    obtain ⟨gate, hgate, hnumber, hid⟩ :=
      (exists_startRow_iff hwell hcount hopens).mp ⟨row, hmem, rfl⟩
    obtain ⟨skill, hskill, hname⟩ := List.mem_map.mp hid
    refine ⟨skill, List.mem_flatMap.mpr ⟨gate, hgate, hskill⟩, hname, ?_⟩
    rwa [hwell.owner gate hgate skill hskill]
  have hseeded := hopened.addRows hrows now
  exact ⟨hseeded.bounded, hseeded.entries, hseeded.opened, hseeded.rows⟩

/-- The record of a new player is sound wherever the player starts. -/
theorem sound_of_onboard? (hgates : curriculum.gates ≠ []) {player : String} {now : Instant}
    {experience : Experience} {started : PlayerRecord} {rows : List Backfill}
    (honboard : (fresh player now).onboard? curriculum experience now = some (started, rows)) :
    started.Sound curriculum := by
  obtain ⟨count, hone, hcount, hopens⟩ :=
    startGates_eq_take hwell hgates (one_le_startGate experience)
  have hopened := opened_of_onboard? hwell hcount hopens honboard
  refine ⟨count, hopened, hone, ?_⟩
  rw [missing_eq_nil_iff]
  intro gate hgate hopen id hid
  have hnumber := (hopened.isUnlocked_iff.mp hopen).2
  have hrow := (exists_startRow_iff hwell hcount hopens).mpr ⟨gate, hgate, hnumber, hid⟩
  unfold PlayerRecord.onboard? at honboard
  split at honboard
  · cases honboard
  cases honboard
  change ((PlayerRecord.addRows _ _ now).row? id).isSome
  rw [row?_addRows, Option.isSome_or, Option.isSome_map]
  simpa using .inr hrow

end WellFormed

end PlayerRecord

end PokerCoach
