import PokerCoach.Proofs.Progress.Lesson

/-!
# Records that extend others

What a record never loses. The relation is transitive and holds of every change that an engine
makes, so that it holds between any two moments in the life of a record.
-/

namespace PokerCoach

open Std Time

/-- One record extends another of the same player: an open gate is open since the same time, a row
is still there with no fewer opportunities, and what onboarding was told stands. -/
structure PlayerRecord.Extends (newer older : PlayerRecord) : Prop where
  player : newer.player = older.player
  createdAt : newer.createdAt = older.createdAt
  onboarded : ∀ experience, older.onboarded = some experience → newer.onboarded = some experience
  gates : ∀ (gate : UInt32) (entry : GateEntry), older.gates[gate]? = some entry → entry.unlocked →
    newer.gates[gate]? = some entry
  rows : ∀ (skill : String) (row : SkillRow), older.row? skill = some row →
    ∃ grown, newer.row? skill = some grown ∧ grown.createdAt = row.createdAt ∧
      row.opportunities ≤ grown.opportunities

theorem le_countUp (n : UInt32) : n ≤ countUp n := by
  have hlt := n.toNat_lt_size
  rw [UInt32.le_iff_toNat_le, toNat_countUp]
  omega

namespace SkillRow

variable {α : Type} [Share α] (row : SkillRow) (outcome : Outcome) (rule : EvidenceRule α)
  (marginalCredit : α) (now : Instant)

/-- Besides what goes into the window, an outcome changes the level and the time of the last move. -/
theorem exists_record_eq :
    ∃ level moved, (row.record outcome rule marginalCredit now).1 =
      { (if outcome.isApplicable then row.push outcome rule.windowSize now else row) with
        level, lastTransitionAt := moved } := by
  unfold record settle
  split
  · dsimp only
    split
    · exact ⟨_, _, rfl⟩
    · exact ⟨_, _, rfl⟩
  · exact ⟨_, _, rfl⟩

theorem skill_record : (row.record outcome rule marginalCredit now).1.skill = row.skill := by
  obtain ⟨level, moved, hrecord⟩ := row.exists_record_eq outcome rule marginalCredit now
  rw [hrecord]
  split <;> rfl

theorem createdAt_record :
    (row.record outcome rule marginalCredit now).1.createdAt = row.createdAt := by
  obtain ⟨level, moved, hrecord⟩ := row.exists_record_eq outcome rule marginalCredit now
  rw [hrecord]
  split <;> rfl

theorem opportunities_record :
    (row.record outcome rule marginalCredit now).1.opportunities =
      if outcome.isApplicable then countUp row.opportunities else row.opportunities := by
  obtain ⟨level, moved, hrecord⟩ := row.exists_record_eq outcome rule marginalCredit now
  rw [hrecord]
  split <;> rfl

end SkillRow

namespace PlayerRecord

namespace Extends

@[refl]
protected theorem refl (record : PlayerRecord) : record.Extends record where
  player := rfl
  createdAt := rfl
  onboarded _ honboarded := honboarded
  gates _ _ hentry _ := hentry
  rows _ row hrow := ⟨row, hrow, rfl, UInt32.le_refl _⟩

protected theorem trans {first second third : PlayerRecord} (hnew : third.Extends second)
    (hold : second.Extends first) : third.Extends first where
  player := hnew.player.trans hold.player
  createdAt := hnew.createdAt.trans hold.createdAt
  onboarded experience honboarded := hnew.onboarded _ (hold.onboarded _ honboarded)
  gates gate entry hentry hopen := hnew.gates _ _ (hold.gates _ _ hentry hopen) hopen
  rows skill row hrow := by
    obtain ⟨middle, hmiddle, hcreated, hle⟩ := hold.rows skill row hrow
    obtain ⟨grown, hgrown, hcreated', hle'⟩ := hnew.rows skill middle hmiddle
    exact ⟨grown, hgrown, hcreated'.trans hcreated, UInt32.le_trans hle hle'⟩

theorem isUnlocked {newer older : PlayerRecord} (hext : newer.Extends older) {gate : UInt32}
    (hopen : older.isUnlocked gate) : newer.isUnlocked gate := by
  obtain ⟨entry, hentry, hunlocked⟩ := (Option.any_eq_true _ _).mp hopen
  exact (Option.any_eq_true _ _).mpr ⟨entry, hext.gates gate entry hentry hunlocked, hunlocked⟩

theorem isLocked {newer older : PlayerRecord} (hext : newer.Extends older) {gate : UInt32}
    (hlocked : newer.isUnlocked gate = false) : older.isUnlocked gate = false := by
  cases hopen : older.isUnlocked gate with
  | false => rfl
  | true => exact absurd (hext.isUnlocked hopen) (by simp [hlocked])

theorem comesUp {newer older : PlayerRecord} (hext : newer.Extends older) {curriculum : Curriculum}
    {skill : String} (hcomes : older.ComesUp curriculum skill) :
    newer.ComesUp curriculum skill := by
  obtain ⟨candidate, hmem, hid, hopen⟩ := hcomes
  exact ⟨candidate, hmem, hid, hext.isUnlocked hopen⟩

end Extends

variable (record : PlayerRecord) (curriculum : Curriculum) (now : Instant)

theorem touch_extends : (record.touch now).Extends record :=
  ⟨rfl, rfl, fun _ h => h, fun _ _ h _ => h, fun _ row h => ⟨row, h, rfl, UInt32.le_refl _⟩⟩

theorem unlock_extends (gate : UInt32) : (record.unlock gate now).Extends record where
  player := rfl
  createdAt := rfl
  onboarded _ honboarded := honboarded
  gates other entry hentry hopen := by
    by_cases heq : gate = other
    · subst heq
      simp [unlock, setGate, hentry, GateEntry.unlock, hopen]
    · simpa [unlock, setGate, ExtTreeMap.getElem?_insert, heq] using hentry
  rows _ row hrow := ⟨row, hrow, rfl, UInt32.le_refl _⟩

theorem addRows_extends (rows : List Backfill) : (record.addRows rows now).Extends record where
  player := by rw [addRows_eq]
  createdAt := by rw [addRows_eq]
  onboarded experience honboarded := by rw [addRows_eq, ← honboarded]
  gates gate entry hentry _ := by rw [addRows_eq, ← hentry]
  rows skill row hrow :=
    ⟨row, by rw [row?_addRows, hrow, Option.some_or], rfl, UInt32.le_refl _⟩

theorem backfill_extends : (record.backfill curriculum now).1.Extends record := by
  unfold backfill
  split
  · exact .refl record
  · exact (touch_extends _ now).trans (addRows_extends record now _)

theorem setUp_extends : (record.setUp curriculum now).Extends record := by
  refine (backfill_extends _ curriculum now).trans ?_
  unfold ensureEntryGate
  split
  · exact .refl record
  · exact (touch_extends _ now).trans (unlock_extends record now 1)

theorem practice_extends (skill : Skill) (outcome : Outcome) (marginalCredit : Float) :
    (record.practice skill outcome marginalCredit now).Extends record where
  player := rfl
  createdAt := rfl
  onboarded _ honboarded := honboarded
  gates _ _ hentry _ := hentry
  rows id row hrow := by
    simp only [practice, row?_touch, row?_setRow]
    split
    · rename_i heq
      subst heq
      refine ⟨_, rfl, ?_, ?_⟩
      · rw [SkillRow.createdAt_record, rowFor, hrow, Option.getD_some]
      · rw [SkillRow.opportunities_record, rowFor, hrow, Option.getD_some]
        split
        · exact le_countUp _
        · exact UInt32.le_refl _
    · exact ⟨row, hrow, rfl, UInt32.le_refl _⟩

theorem advance_extends (skill : String) :
    (record.advance curriculum skill now).Extends record := by
  unfold advance
  split
  · exact .refl record
  · exact (backfill_extends _ curriculum now).trans
      ((touch_extends _ now).trans (unlock_extends record now _))

theorem learn_extends (skill : Skill) (outcome : Outcome) (marginalCredit : Float) :
    (record.learn curriculum skill outcome marginalCredit now).Extends record :=
  (advance_extends _ curriculum now skill.id).trans
    (practice_extends record now skill outcome marginalCredit)

theorem foldl_unlock_extends (gates : List Gate) :
    (gates.foldl (fun record gate => record.unlock gate.number now) record).Extends record := by
  induction gates generalizing record with
  | nil => exact .refl record
  | cons gate rest ih => exact (ih _).trans (unlock_extends record now gate.number)

theorem player_of_onboard? {experience : Experience} {started : PlayerRecord}
    {rows : List Backfill}
    (honboard : record.onboard? curriculum experience now = some (started, rows)) :
    started.player = record.player := by
  unfold onboard? at honboard
  split at honboard
  · cases honboard
  · cases honboard
    exact ((addRows_extends _ now _).trans (foldl_unlock_extends record now _)).player

variable {record curriculum} in
theorem missing_practice (hmissing : record.missing curriculum = []) (skill : Skill)
    (outcome : Outcome) (marginalCredit : Float) :
    (record.practice skill outcome marginalCredit now).missing curriculum = [] := by
  rw [missing_eq_nil_iff]
  intro gate hgate hopen id hid
  have hrow := (missing_eq_nil_iff record curriculum).mp hmissing gate hgate hopen id hid
  obtain ⟨row, hrow⟩ := Option.isSome_iff_exists.mp hrow
  obtain ⟨grown, hgrown, -⟩ :=
    (practice_extends record now skill outcome marginalCredit).rows id row hrow
  simp [hgrown]

variable {record curriculum} in
/-- A record that is missing no row is missing none after a lesson, whatever gate it opens. -/
theorem missing_learn (hmissing : record.missing curriculum = []) (skill : Skill)
    (outcome : Outcome) (marginalCredit : Float) :
    (record.learn curriculum skill outcome marginalCredit now).missing curriculum = [] := by
  unfold PlayerRecord.learn advance
  split
  · exact missing_practice now hmissing skill outcome marginalCredit
  · exact missing_backfill _ curriculum now

theorem IsSetUp.learn {record : PlayerRecord} {curriculum : Curriculum}
    (hset : record.IsSetUp curriculum) (skill : Skill) (outcome : Outcome)
    (marginalCredit : Float) :
    (record.learn curriculum skill outcome marginalCredit now).IsSetUp curriculum :=
  ⟨(learn_extends record curriculum now skill outcome marginalCredit).isUnlocked hset.1,
    missing_learn now hset.2 skill outcome marginalCredit⟩

end PlayerRecord

end PokerCoach
