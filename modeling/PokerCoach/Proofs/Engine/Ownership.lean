import PokerCoach.Proofs.Engine.Play

/-!
# Whose records lie where

A store may hold records under the names of other players than their own. As long as no record of
one player lies on the desk of another, decisions keep it so, and those of other players leave the
desk of the one as it is.
-/

namespace PokerCoach

open Std Time

namespace Engine

variable {σ : Type} [RecordStore σ] [LawfulStore σ] {engine : Engine (TracedStore σ)}
  {player name : String}

/-- No record of a player lies on the desk of another. -/
def Apart (engine : Engine (TracedStore σ)) (player : String) : Prop :=
  ∀ other, other ≠ player → (engine.desk other).All fun record => record.player ≠ player

/-! ### Parts of a decision -/

namespace Apart

theorem persist (hapart : engine.Apart player) {record : PlayerRecord}
    (hrecord : record.player ≠ player) (now : Instant) :
    (engine.persist record now).2.Apart player := by
  intro other hne
  rw [desk_persist]
  split
  · exact (hapart other hne).write hrecord _
  · exact hapart other hne

theorem cache (hapart : engine.Apart player) {slot : Slot} (hslot : slot.record.player ≠ player)
    (name : String) : (engine.cache name slot).Apart player := by
  intro other hne
  rw [desk_cache]
  split
  · exact (hapart other hne).hold hslot
  · exact hapart other hne

theorem fetch (hapart : engine.Apart player) (name : String) :
    (engine.fetch name).2.Apart player := by
  intro other hne
  rw [desk_fetch]
  split
  · exact (hapart other hne).read name _
  · exact hapart other hne

theorem emitAll (hapart : engine.Apart player) (happenings : List Happening) (now : Instant) :
    (engine.emitAll happenings now).Apart player := by
  intro other hne
  rw [desk_emitAll]
  exact hapart other hne

theorem install (hapart : engine.Apart player) {source : Source} {now : Instant}
    (hsource : (source.record name now).player ≠ player) :
    (engine.install name source now).1.slot.record.player ≠ player ∧
      (engine.install name source now).2.Apart player := by
  have hrecord : ((source.record name now).setUp engine.curriculum now).player ≠ player := by
    rwa [((source.record name now).setUp_extends engine.curriculum now).player]
  refine ⟨hrecord, ?_⟩
  cases hdurable : source.isDurable with
  | true =>
      rcases engine.install_durable hdurable with
        ⟨record, rfl, -, hinstall⟩ | ⟨happenings, hinstall⟩
      · rw [hinstall]
        exact hapart.cache hsource name
      · rw [hinstall]
        exact ((hapart.emitAll happenings now).persist hrecord now).cache hrecord name
  | false =>
      cases source with
      | unread => exact hapart.cache hrecord name
      | _ => cases hdurable

theorem load (hapart : engine.Apart player) (hname : name ≠ player) (now : Instant) :
    (engine.load name now).1.slot.record.player ≠ player ∧
      (engine.load name now).2.Apart player := by
  have hfetched := hapart.fetch name
  have hstored : ∀ record, (engine.fetch name).1 = .ok (some record) → record.player ≠ player := by
    intro record hfound
    rcases engine.fetch_eq name with hok | ⟨error, herror⟩
    · exact (hapart name hname).stored record (Except.ok.inj (hok.symm.trans hfound))
    · cases herror.symm.trans hfound
  unfold Engine.load
  split
  · rename_i record hslot
    exact ⟨(hapart name hname).cached _ hslot, hapart⟩
  · rename_i kept hslot
    have hkept : kept.player ≠ player := (hapart name hname).cached _ hslot
    dsimp only
    split
    · exact hfetched.install (hstored _ ‹_›)
    · exact hfetched.install hkept
    · exact ⟨hkept, hfetched⟩
  · dsimp only
    split
    · exact hfetched.install (hstored _ ‹_›)
    · exact hfetched.install hname
    · rename_i error _
      have htracked : ((engine.fetch name).2.track error now).Apart player := hfetched
      exact htracked.install hname

end Apart

end Engine

namespace Turn

variable {σ : Type} [RecordStore σ] [LawfulStore σ] {turn : Turn (TracedStore σ)} {player : String}

theorem apart_learned (hapart : turn.engine.Apart player)
    (hrecord : turn.slot.record.player ≠ player) (skill : Skill) (evaluation : Evaluation)
    (now : Instant) : (turn.learned skill evaluation now).engine.Apart player := by
  let opened :=
    ((turn.note evaluation).recordOutcome skill evaluation.outcome now).openGate skill.id now
  have hopened : opened.engine.Apart player := by
    intro other hne
    simp only [opened, desk_engine_openGate, desk_engine_recordOutcome]
    exact hapart other hne
  have howner : opened.slot.record.player ≠ player := by
    rw [← show (turn.learned skill evaluation now).slot = opened.slot from slot_save _ now,
      slot_learned, (PlayerRecord.learn_extends _ _ now skill _ _).player]
    exact hrecord
  show (opened.save now).engine.Apart player
  unfold save
  split
  · exact hopened.persist howner now
  · exact hopened

variable (session : String) (live : LiveAction) (spot : Situation) (now : Instant)

theorem apart_judge (hapart : turn.engine.Apart player)
    (hrecord : turn.slot.record.player ≠ player) (skill : String) :
    (turn.judge session live spot now skill).engine.Apart player := by
  rcases turn.judge_cases session now live spot skill with
    ⟨-, hjudge⟩ | ⟨definition, -, -, -, hjudge⟩
  · rw [hjudge]
    exact hapart
  · rw [hjudge]
    intro other hne
    dsimp only
    rw [Engine.desk_remember]
    exact apart_learned hapart hrecord definition _ now other hne

theorem apart_foldl_judge (hapart : turn.engine.Apart player)
    (hrecord : turn.slot.record.player ≠ player) (skills : List String) :
    (skills.foldl (Turn.judge session live spot now) turn).engine.Apart player := by
  induction skills generalizing turn with
  | nil => exact hapart
  | cons skill rest ih =>
      refine ih (apart_judge session live spot now hapart hrecord skill) ?_
      rwa [(turn.record_judge_extends session live spot now skill).player]

end Turn

/-! ### Whole decisions -/

namespace Engine

variable {σ : Type} [RecordStore σ] [LawfulStore σ] {engine : Engine (TracedStore σ)}
  {player : String} {decision : Decision}

/-- The records of a player lie on the own desk, and no others do. -/
structure Owns (engine : Engine (TracedStore σ)) (player : String) : Prop where
  own : (engine.desk player).Keyed player
  apart : engine.Apart player

theorem Apart.loadFor (hapart : engine.Apart player) (hne : decision.player ≠ player)
    (session : String) (now : Instant) :
    (engine.loadFor session decision now).1.slot.record.player ≠ player ∧
      (engine.loadFor session decision now).2.Apart player := by
  refine Apart.load (fun other hother => ?_) hne now
  rw [desk_ensureSession]
  exact hapart other hother

theorem Apart.desk_decide (hapart : engine.Apart player) (hne : decision.player ≠ player)
    (session : String) (live : LiveAction) (now : Instant) :
    (engine.decide session decision live now).2.desk player = engine.desk player :=
  desk_decide_of_loaded_ne (hapart decision.player hne) (hapart.loadFor hne session now).1 hne live

theorem Owns.decide (howns : engine.Owns player) (session : String) (decision : Decision)
    (live : LiveAction) (now : Instant) :
    (engine.decide session decision live now).2.Owns player := by
  by_cases heq : decision.player = player
  · subst heq
    refine ⟨(moves_decide howns.own session live now).keyed howns.own, fun other hne => ?_⟩
    rw [desk_decide_of_ne howns.own session live now hne.symm]
    exact howns.apart other hne
  · obtain ⟨hrecord, hloaded⟩ := howns.apart.loadFor heq session now
    refine ⟨?_, Apart.cache ?_ ?_ _⟩
    · rw [howns.apart.desk_decide heq]
      exact howns.own
    · exact Turn.apart_foldl_judge session live _ now hloaded hrecord _
    · have hext := (engine.startTurn session decision live now).record_foldl_judge_extends session
        live (decision.situation (some live)) now
        (engine.startTurn session decision live now).report.triggered
      exact fun hplayer => hrecord (hext.player.symm.trans hplayer)

end Engine

end PokerCoach
