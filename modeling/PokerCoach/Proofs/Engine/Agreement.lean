import PokerCoach.Proofs.Engine.Play
import Mathlib.Data.List.Induction

/-!
# Cache and store agree

Every change of a durable record is followed by a write in the same operation. So a durable cached
record is the stored one, unless the last write since it became durable has failed, and a decision
that reports its record as written leaves it in the store.
-/

namespace PokerCoach

open Std Time

/-! ### The last write -/

namespace Access

/-- Whether a write worked. -/
def written? : Access → Option Bool
  | read .. => none
  | write _ _ worked => some worked

/-- Whether the last write worked; none if there was no write. -/
def lastWrite? (accesses : List Access) : Option Bool :=
  (accesses.filterMap written?).getLast?

theorem lastWrite?_append (first second : List Access) :
    lastWrite? (first ++ second) = (lastWrite? second).or (lastWrite? first) := by
  simp [lastWrite?, List.getLast?_append]

end Access

open Access (lastWrite? lastWrite?_append)

namespace Desk

/-- What may have come of a durable cached record since an earlier desk: it is stored, or the last
write failed, or there was no write and nothing has changed. -/
structure Agrees (desk after : Desk) (since : List Access) : Prop where
  accesses : after.accesses = desk.accesses ++ since
  cached : ∀ record, after.cached = some ⟨record, true⟩ →
    after.stored = some record ∨ lastWrite? since = some false ∨
      lastWrite? since = none ∧ after.cached = desk.cached ∧ after.stored = desk.stored

namespace Agrees

variable {desk middle after : Desk} {first second : List Access}

theorem refl (desk : Desk) : desk.Agrees desk [] :=
  ⟨(List.append_nil _).symm, fun _ _ => .inr (.inr ⟨rfl, rfl, rfl⟩)⟩

theorem trans (hfirst : desk.Agrees middle first) (hsecond : middle.Agrees after second) :
    desk.Agrees after (first ++ second) where
  accesses := by rw [hsecond.accesses, hfirst.accesses, List.append_assoc]
  cached record hcached := by
    rw [lastWrite?_append]
    rcases hsecond.cached record hcached with hstored | hfailed | ⟨hnone, hsame, hstored⟩
    · exact .inl hstored
    · exact .inr (.inl (by rw [hfailed, Option.some_or]))
    · rw [hnone, Option.none_or, hsame, hstored]
      exact hfirst.cached record (hsame.symm.trans hcached)

/-- Nothing is asked of a desk without a durable record. -/
theorem of_accesses {since : List Access} (haccesses : after.accesses = desk.accesses ++ since)
    (hcached : ∀ record, after.cached ≠ some ⟨record, true⟩) : desk.Agrees after since :=
  ⟨haccesses, fun record hrecord => absurd hrecord (hcached record)⟩

theorem read (desk : Desk) (player : String) (worked : Bool) :
    desk.Agrees (desk.read player worked) [.read player worked] :=
  ⟨rfl, fun _ _ => .inr (.inr ⟨rfl, rfl, rfl⟩)⟩

theorem hold_write (desk : Desk) (slot : Slot) (worked : Bool) :
    desk.Agrees ((desk.hold slot).write slot.record worked)
      [.write desk.stored slot.record worked] where
  accesses := rfl
  cached record hcached := by
    cases hcached
    cases worked with
    | true => exact .inl rfl
    | false => exact .inr (.inl rfl)

end Agrees

variable {curriculum : Curriculum} {player : String} {desk after : Desk}

theorem Loads.agrees {now : Instant} {loaded : Loaded}
    (hloads : desk.Loads curriculum player now loaded after) :
    ∃ since, desk.Agrees after since := by
  cases hloads with
  | durable record hcached => exact ⟨_, .refl desk⟩
  | unread record hcached => exact ⟨_, .read desk player false⟩
  | standIn loaded hcached hloaded =>
      subst hloaded
      exact ⟨[.read player false], .of_accesses rfl fun record hrecord => by cases hrecord⟩
  | unchanged record hneeds hstored hset =>
      refine ⟨[.read player true], rfl, fun other hother => ?_⟩
      cases hother
      exact .inl hstored
  | changed loaded hneeds hloaded =>
      exact ⟨_, (Agrees.read desk player true).trans (.hold_write _ loaded.slot _)⟩

theorem Releases.agrees (hreleases : desk.Releases after) : ∃ since, desk.Agrees after since := by
  cases hreleases with
  | absent hcached => exact ⟨_, .refl desk⟩
  | saved record hcached =>
      exact ⟨[.write desk.stored record true], .of_accesses rfl fun _ hother => by cases hother⟩
  | kept record hcached =>
      exact ⟨[.write desk.stored record false], rfl, fun _ _ => .inr (.inl rfl)⟩
  | forgotten record hcached =>
      exact ⟨[], .of_accesses (List.append_nil _).symm fun _ hother => by cases hother⟩

theorem Move.agrees (hmove : desk.Move curriculum player after) :
    ∃ since, desk.Agrees after since := by
  cases hmove with
  | read worked => exact ⟨_, .read desk player worked⟩
  | load now hloads => exact hloads.agrees
  | learn slot skill outcome marginalCredit now worked hcached hskill happlicable hcomes =>
      unfold save
      split
      · exact ⟨_, .hold_write desk _ worked⟩
      · rename_i hdurable
        refine ⟨[], .of_accesses (List.append_nil _).symm fun record hrecord => ?_⟩
        exact hdurable (congrArg Slot.durable (Option.some.inj hrecord))
  | release hreleases => exact hreleases.agrees
  | @onboard record rows experience now hcached hstored honboard =>
      exact ⟨_, (Agrees.read desk player true).trans (.hold_write _ ⟨record, true⟩ true)⟩
  | @decline record rows experience now hcached hstored honboard =>
      refine ⟨[.read player true, .write desk.stored record false],
        .of_accesses (by simp [Desk.read, write]) fun other hother => ?_⟩
      cases hcached.symm.trans hother

theorem Moves.agrees (hmoves : desk.Moves curriculum player after) :
    ∃ since, desk.Agrees after since := by
  induction hmoves with
  | refl => exact ⟨_, .refl desk⟩
  | tail _ hmove ih =>
      obtain ⟨first, hfirst⟩ := ih
      obtain ⟨second, hsecond⟩ := hmove.agrees
      exact ⟨_, hfirst.trans hsecond⟩

end Desk

/-! ### Where durable records come from -/

/-- An operation that may make the record of a player durable. -/
def Operation.brings (player : String) : Operation → Prop
  | decide _ decision _ _ => decision.player = player
  | onboard newcomer _ _ => newcomer = player
  | _ => False

namespace Operation

variable {player : String} {operation : Operation}

theorem decisionOf?_of_not_brings (hbrings : ¬ operation.brings player) :
    operation.decisionOf? player = none := by
  cases operation with
  | decide session decision live now => exact if_neg hbrings
  | _ => rfl

theorem brings_cases (hbrings : operation.brings player) :
    (∃ session decision live now, operation = .decide session decision live now ∧
      decision.player = player) ∨
    ∃ experience now, operation = .onboard player experience now := by
  cases operation with
  | decide session decision live now => exact .inl ⟨session, decision, live, now, rfl, hbrings⟩
  | onboard newcomer experience now =>
      cases hbrings
      exact .inr ⟨experience, now, rfl⟩
  | _ => cases hbrings

end Operation

namespace Engine

def isDurable {σ : Type} (engine : Engine σ) (player : String) : Bool :=
  (engine.slot? player).any Slot.durable

variable {σ : Type} [RecordStore σ] [LawfulStore σ] {engine : Engine (TracedStore σ)}

theorem isDurable_iff {player : String} :
    engine.isDurable player ↔ ∃ record, (engine.desk player).cached = some ⟨record, true⟩ := by
  rw [isDurable, show (engine.desk player).cached = engine.slot? player from rfl]
  rcases engine.slot? player with _ | ⟨record, durable⟩ <;> simp

theorem restarts?_of_durable {operation : Operation} {player : String}
    (hdurable : (engine.step operation).isDurable player) : operation.restarts? = none := by
  cases hrestarts : operation.restarts? with
  | none => rfl
  | some course =>
      obtain ⟨journal, rfl⟩ := Operation.restarts?_eq_some hrestarts
      obtain ⟨record, hcached⟩ := isDurable_iff.mp hdurable
      rw [desk_restart] at hcached
      cases hcached

/-- An operation that does not bring a record at most reads it, or releases it. -/
theorem Keyed.desk_step_of_not_brings (hkeyed : engine.Keyed) {operation : Operation}
    {player : String} (hgoes : operation.restarts? = none) (hbrings : ¬ operation.brings player) :
    (engine.step operation).desk player = engine.desk player ∨
      (∃ asked worked, (engine.step operation).desk player =
        (engine.desk player).read asked worked) ∨
      (engine.desk player).Releases ((engine.step operation).desk player) := by
  cases hknown : operation.onboards with
  | true =>
      cases operation with
      | onboard newcomer experience now => exact .inl (desk_onboard_of_ne hbrings experience now)
      | _ => cases hknown
  | false =>
      have hother := Operation.decisionOf?_of_not_brings hbrings
      exact (hkeyed.desk_step_of_decisionOf? hgoes hknown hother).imp_right
        (Or.imp_right And.right)

theorem Keyed.brings_of_durable (hkeyed : engine.Keyed) {operation : Operation} {player : String}
    (htransient : ¬ engine.isDurable player) (hdurable : (engine.step operation).isDurable player) :
    operation.brings player := by
  have hmissing (record : PlayerRecord) : (engine.desk player).cached ≠ some ⟨record, true⟩ :=
    fun hcached => htransient (isDurable_iff.mpr ⟨record, hcached⟩)
  obtain ⟨record, hcached⟩ := isDurable_iff.mp hdurable
  by_contra hbrings
  rcases hkeyed.desk_step_of_not_brings (restarts?_of_durable hdurable) hbrings with
    hsame | ⟨asked, worked, hread⟩ | hreleases
  · exact hmissing record (hsame ▸ hcached)
  · rw [hread] at hcached
    exact hmissing record hcached
  · generalize (engine.step operation).desk player = after at hcached hreleases
    cases hreleases with
    | absent => exact hmissing record hcached
    | kept other hother => exact hmissing other hother
    | _ => cases hcached

/-- The last part of a run, all through which the record of a player was durable, with the operation
that made it so. -/
structure Spell (start : Engine (TracedStore σ)) (player : String) (before : List Operation)
    (operation : Operation) (after : List Operation) : Prop where
  brings : operation.brings player
  transient : ¬ (start.run before).isDurable player
  durable : ∀ early, early <+: after →
    (start.run (before ++ operation :: early)).isDurable player

theorem Keyed.exists_spell (hkeyed : engine.Keyed) {player : String} {operations : List Operation}
    (hdurable : (engine.run operations).isDurable player)
    (hlaunched : ¬ engine.isDurable player) :
    ∃ before operation after since, operations = before ++ operation :: after ∧
      engine.Spell player before operation after ∧
      ((engine.run before).desk player).Agrees ((engine.run operations).desk player) since := by
  -- From the end of the run: the last operation made the record durable or found it so.
  induction operations using List.reverseRecOn with
  | nil => exact absurd hdurable hlaunched
  | append_singleton done last ih =>
      have hreached := hkeyed.run done
      rw [run_append, run_cons, run_nil] at hdurable
      obtain ⟨second, hsecond⟩ :=
        (hreached.moves_step (restarts?_of_durable hdurable) player).agrees
      rw [run_append, run_cons, run_nil]
      by_cases hearlier : (engine.run done).isDurable player
      · obtain ⟨before, operation, after, first, rfl, hspell, hfirst⟩ := ih hearlier
        refine ⟨before, operation, after ++ [last], first ++ second, by simp,
          ⟨hspell.brings, hspell.transient, fun early hprefix => ?_⟩, hfirst.trans hsecond⟩
        rcases List.prefix_concat_iff.mp hprefix with rfl | hshorter
        · simpa using hdurable
        · exact hspell.durable early hshorter
      · refine ⟨done, last, [], second, rfl,
          ⟨hreached.brings_of_durable hearlier hdurable, hearlier, fun early hprefix => ?_⟩,
          hsecond⟩
        rw [List.prefix_nil.mp hprefix, run_append]
        exact hdurable

/-- Since the record became durable, it is stored or the last write failed. -/
theorem Keyed.stored_or_failed (hkeyed : engine.Keyed) {player : String}
    {operations : List Operation} {record : PlayerRecord}
    (hcached : ((engine.run operations).desk player).cached = some ⟨record, true⟩)
    (hlaunched : ¬ engine.isDurable player) :
    ∃ before operation after since, operations = before ++ operation :: after ∧
      engine.Spell player before operation after ∧
      ((engine.run operations).desk player).accesses =
        ((engine.run before).desk player).accesses ++ since ∧
      (((engine.run operations).desk player).stored = some record ∨
        lastWrite? since = some false) := by
  obtain ⟨before, operation, after, since, hsplit, hspell, hagrees⟩ :=
    hkeyed.exists_spell (isDurable_iff.mpr ⟨record, hcached⟩) hlaunched
  refine ⟨before, operation, after, since, hsplit, hspell, hagrees.accesses, ?_⟩
  rcases hagrees.cached record hcached with hstored | hfailed | ⟨-, hsame, -⟩
  · exact .inl hstored
  · exact .inr hfailed
  · exact absurd (isDurable_iff.mpr ⟨record, hsame.symm.trans hcached⟩) hspell.transient

end Engine

/-! ### Decisions that report their record as written -/

namespace Turn

section Persisted

variable {σ : Type} (turn : Turn σ)

@[simp]
theorem report_emitAll (happenings : List Happening) (now : Instant) :
    (turn.emitAll happenings now).report = turn.report := by
  rw [emitAll_eq]

@[simp]
theorem persisted_recordOutcome (skill : Skill) (outcome : Outcome) (now : Instant) :
    (turn.recordOutcome skill outcome now).report.persisted = turn.report.persisted := by
  unfold recordOutcome
  rw [report_emitAll]

@[simp]
theorem persisted_openGate (skill : String) (now : Instant) :
    (turn.openGate skill now).report.persisted = turn.report.persisted := by
  cases hearned : turn.slot.record.earnedGate? turn.engine.curriculum skill with
  | none => rw [turn.openGate_eq_of_none hearned]
  | some gate =>
      simp only [openGate, PlayerRecord.checkGate, hearned, report_emitAll]

end Persisted

variable {σ : Type} [RecordStore σ] [LawfulStore σ] {turn : Turn (TracedStore σ)} {player : String}

theorem stored_of_persisted_save (hplayer : turn.slot.record.player = player) {now : Instant}
    (hpersisted : (turn.save now).report.persisted = true) :
    turn.report.persisted = true ∧ (turn.slot.durable = true →
      ((turn.save now).engine.desk player).stored = some (turn.save now).slot.record) := by
  rw [slot_save]
  cases hdurable : turn.slot.durable with
  | false =>
      simp only [save, hdurable] at hpersisted
      exact ⟨hpersisted, fun htrue => by cases htrue⟩
  | true =>
      have hdesk := turn.engine.desk_persist turn.slot.record now player
      simp only [save, hdurable, if_true, Bool.and_eq_true] at hpersisted ⊢
      refine ⟨hpersisted.1, fun _ => ?_⟩
      rw [hdesk, if_pos hplayer, hpersisted.2]
      rfl

/-- What the report of a turn promises: the record is durable, and stored once an evaluation has
applied. -/
structure Saves (turn : Turn (TracedStore σ)) (player : String) : Prop where
  durable : turn.report.persisted = true → turn.slot.durable = true
  stored : turn.report.persisted = true →
    (∃ evaluation ∈ turn.report.evaluations, evaluation.outcome.isApplicable = true) →
    (turn.engine.desk player).stored = some turn.slot.record

theorem Saves.learned (hsaves : turn.Saves player) (hplayer : turn.slot.record.player = player)
    (skill : Skill) (evaluation : Evaluation) (now : Instant) :
    (turn.learned skill evaluation now).Saves player := by
  have hslot := turn.slot_learned skill evaluation now
  have howner : (turn.learned skill evaluation now).slot.record.player = player := by
    rw [hslot, ← hplayer]
    exact (PlayerRecord.learn_extends _ _ now skill _ _).player
  have hdurable : (turn.learned skill evaluation now).slot.durable = turn.slot.durable := by
    rw [hslot]
  have hwritten (hpersisted : (turn.learned skill evaluation now).report.persisted = true) := by
    rw [Turn.learned, slot_save] at howner
    obtain ⟨hbefore, hstored⟩ := stored_of_persisted_save howner hpersisted
    rw [persisted_openGate, persisted_recordOutcome] at hbefore
    rw [durable_openGate, durable_recordOutcome] at hstored
    exact (⟨hsaves.durable hbefore, hstored (hsaves.durable hbefore)⟩ :
      turn.slot.durable = true ∧ _)
  exact ⟨fun hpersisted => hdurable.trans (hwritten hpersisted).1,
    fun hpersisted _ => (hwritten hpersisted).2⟩

variable (session : String) (live : LiveAction) (spot : Situation) (now : Instant)

theorem Saves.judge (hsaves : turn.Saves player) (hplayer : turn.slot.record.player = player)
    {skill : String} (htaught : (turn.engine.curriculum.skill? skill).isSome) :
    (turn.judge session live spot now skill).Saves player := by
  rcases turn.judge_cases session now live spot skill with
    ⟨hskip, hjudge⟩ | ⟨definition, -, -, -, hjudge⟩
  · rw [hjudge]
    refine ⟨hsaves.durable, fun hpersisted happlied => hsaves.stored hpersisted ?_⟩
    obtain ⟨evaluation, hmem, happlicable⟩ := happlied
    rcases List.mem_append.mp hmem with hmem | hmem
    · exact ⟨evaluation, hmem, happlicable⟩
    · rw [List.mem_singleton.mp hmem] at happlicable
      rw [hskip happlicable] at htaught
      cases htaught
  · have hlearned := hsaves.learned hplayer definition (turn.engine.rules.evaluate skill live spot)
      now
    rw [hjudge]
    exact ⟨hlearned.durable, fun hpersisted happlied => by
      rw [Engine.desk_remember]
      exact hlearned.stored hpersisted happlied⟩

theorem Saves.foldl_judge (hsaves : turn.Saves player) (hplayer : turn.slot.record.player = player)
    {skills : List String}
    (htaught : ∀ skill ∈ skills, (turn.engine.curriculum.skill? skill).isSome) :
    (skills.foldl (Turn.judge session live spot now) turn).Saves player := by
  induction skills generalizing turn with
  | nil => exact hsaves
  | cons skill rest ih =>
      have hcurriculum : (turn.judge session live spot now skill).engine.curriculum =
          turn.engine.curriculum :=
        congrArg Course.curriculum (turn.course_judge session now skill)
      refine ih (hsaves.judge session live spot now hplayer (htaught skill List.mem_cons_self)) ?_
        fun other hmem => hcurriculum ▸ htaught other (List.mem_cons_of_mem skill hmem)
      exact (turn.record_judge_extends session live spot now skill).player.trans hplayer

end Turn

namespace Engine

variable {σ : Type} [RecordStore σ] [LawfulStore σ] {engine : Engine (TracedStore σ)}

theorem saves_endTurn {decision : Decision}
    (hkeyed : (engine.desk decision.player).Keyed decision.player) (session : String)
    (live : LiveAction) (now : Instant) :
    (engine.endTurn session decision live now).Saves decision.player := by
  have hstart : (engine.startTurn session decision live now).Saves decision.player :=
    ⟨fun hpersisted => (Bool.and_eq_true_iff.mp hpersisted).2,
      fun _ happlied => by obtain ⟨_, hmem, -⟩ := happlied; exact absurd hmem List.not_mem_nil⟩
  refine hstart.foldl_judge session live _ now (player_startTurn hkeyed session live now) ?_
  intro skill hmem
  have hcurriculum : (engine.startTurn session decision live now).engine.curriculum =
      engine.curriculum :=
    congrArg Course.curriculum (engine.course_startTurn session decision live now)
  have htriggered := congrArg (fun draft => draft.report.triggered)
    (engine.draft_startTurn session decision live now)
  rw [hcurriculum]
  exact Draft.isSome_skill?_of_mem_triggered (htriggered ▸ hmem)

/-- A decision that has learned something and reports its record as written leaves it in the
store. -/
theorem stored_of_persisted {decision : Decision}
    (hkeyed : (engine.desk decision.player).Keyed decision.player) {session : String}
    {live : LiveAction} {now : Instant}
    (hpersisted : (engine.decide session decision live now).1.persisted = true)
    (happlied : ∃ evaluation ∈ (engine.decide session decision live now).1.evaluations,
      evaluation.outcome.isApplicable = true) :
    ∃ record,
      ((engine.decide session decision live now).2.desk decision.player).cached =
        some ⟨record, true⟩ ∧
      ((engine.decide session decision live now).2.desk decision.player).stored =
        some record := by
  have hend := saves_endTurn hkeyed session live now
  rw [desk_decide]
  refine ⟨(engine.endTurn session decision live now).slot.record, congrArg some ?_,
    hend.stored hpersisted happlied⟩
  rw [← hend.durable hpersisted]

/-- Whatever fails, a durable cached record is the stored one, or since the operation that made it
durable something was written for the player, and the last of these writes failed. After a decision
that has learned something and is reported as written, the cached record is stored. -/
theorem cached_record_is_stored (store : σ)
    (hstore : ∀ player record, held store player = some record → record.player = player)
    (course : Course) (journal : Option Journal) (operations : List Operation) (player : String) :
    (∀ record,
      (reached store course journal operations).slot? player = some ⟨record, true⟩ →
      ∃ before operation after since, operations = before ++ operation :: after ∧
        (launch (.watch store) course journal).Spell player before operation after ∧
        (reached store course journal operations).store.accessesOf player =
          (reached store course journal before).store.accessesOf player ++ since ∧
        (held (reached store course journal operations).store player = some record ∨
          lastWrite? since = some false)) ∧
    ∀ session decision live now, decision.player = player →
      let decided := (reached store course journal operations).decide session decision live now
      decided.1.persisted = true →
      (∃ evaluation ∈ decided.1.evaluations, evaluation.outcome.isApplicable = true) →
      ∃ record, decided.2.slot? player = some ⟨record, true⟩ ∧
        held decided.2.store player = some record := by
  have hkeyed := keyed_launch hstore course journal
  refine ⟨fun record hcached => hkeyed.stored_or_failed hcached ?_, ?_⟩
  · rw [isDurable_iff, desk_launch]
    rintro ⟨_, ⟨⟩⟩
  · rintro session decision live now rfl decided hpersisted happlied
    exact stored_of_persisted (hkeyed.run operations decision.player) hpersisted happlied

/-- A new player whose first two writes fail is durable, but not stored before the third. -/
theorem cached_record_is_stored_once_written :
    let store : FaultyStore MemoryStore := { inner := .empty, writeFails := fun write => write < 2 }
    let decision : Decision :=
      { player := "ana", hand := 1, street := .preflop, flags := { trash := true } }
    let operations := [.decide "s" decision { action := .fold } .epoch]
    (∃ before operation after since, operations = before ++ operation :: after ∧
      (launch (TracedStore.watch store) {} none).Spell "ana" before operation after ∧
      lastWrite? since = some false) ∧
    ∃ record,
      ((reached store {} none operations).decide "s" decision { action := .fold } .epoch).2.slot?
        "ana" = some ⟨record, true⟩ ∧
      held ((reached store {} none operations).decide "s" decision { action := .fold }
        .epoch).2.store "ana" = some record := by
  intro store decision operations
  have hdurable : (reached store {} none operations).isDurable "ana" = true := by decide +kernel
  have hunwritten : (held (reached store {} none operations).store "ana").isSome = false := by
    decide +kernel
  obtain ⟨record, hcached⟩ := isDurable_iff.mp hdurable
  obtain ⟨hspells, hpersists⟩ := cached_record_is_stored store
    (player_of_held_empty MemoryStore.find?_empty) {} none operations "ana"
  refine ⟨?_, hpersists "s" decision { action := .fold } .epoch rfl (by decide +kernel)
    (by decide +kernel)⟩
  obtain ⟨before, operation, after, since, hsplit, hspell, -, hstored | hfailed⟩ :=
    hspells record hcached
  · rw [hstored] at hunwritten
    cases hunwritten
  · exact ⟨before, operation, after, since, hsplit, hspell, hfailed⟩

end Engine

end PokerCoach
