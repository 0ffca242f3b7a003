import PokerCoach.Proofs.Engine.Agreement
import PokerCoach.Proofs.Engine.Independence
import PokerCoach.Proofs.Engine.Opportunities
import PokerCoach.Proofs.Engine.Ownership

/-!
# Outages of the store

A player of whom nothing is stored is taught in memory as long as the store cannot be read, and
nothing is written of the player meanwhile. Once the store can be read and written, the whole of
what was learned is stored: the player is taught as on a store that never fails.
-/

namespace PokerCoach

open Std Time

/-- Nothing is stored of a player, under the own name or another. -/
structure HoldsNothingOf {σ : Type} [RecordStore σ] [LawfulStore σ] (store : σ) (player : String) :
    Prop where
  own : held store player = none
  apart : ∀ name record, held store name = some record → record.player ≠ player

theorem HoldsNothingOf.of_empty {σ : Type} [RecordStore σ] [LawfulStore σ] {store : σ}
    (hempty : ∀ name, held store name = none) (player : String) : HoldsNothingOf store player :=
  ⟨hempty player, fun name record hrecord => by cases (hempty name).symm.trans hrecord⟩

def Operation.decides : Operation → Bool
  | decide .. => true
  | _ => false

theorem Operation.decides_eq_true {operation : Operation} (hdecides : operation.decides = true) :
    ∃ session decision live now, operation = .decide session decision live now := by
  cases operation with
  | decide session decision live now => exact ⟨session, decision, live, now, rfl⟩
  | _ => cases hdecides

namespace Engine

variable {σ : Type} [RecordStore σ] [LawfulStore σ] {engine : Engine (TracedStore σ)}
  {player : String} {operations : List Operation}

/-- A player's records lie on the own desk, where what is stored is cached too. -/
structure Keeps (engine : Engine (TracedStore σ)) (player : String) : Prop
    extends engine.Owns player where
  inHand : (engine.desk player).InHand

theorem keeps_launch {store : σ} (hnothing : HoldsNothingOf store player) (course : Course)
    (journal : Option Journal) :
    (launch (TracedStore.watch store) course journal).Keeps player where
  own := by
    rw [desk_launch, hnothing.own]
    exact ⟨by rintro _ ⟨⟩, by rintro _ ⟨⟩⟩
  apart other _ := by
    rw [desk_launch]
    exact ⟨by rintro _ ⟨⟩, hnothing.apart other⟩
  inHand := by
    rw [desk_launch]
    exact .inl hnothing.own

namespace Keeps

theorem decide (hkeeps : engine.Keeps player) (session : String) (decision : Decision)
    (live : LiveAction) (now : Instant) :
    (engine.decide session decision live now).2.Keeps player where
  toOwns := hkeeps.toOwns.decide session decision live now
  inHand := by
    by_cases heq : decision.player = player
    · subst heq
      exact inHand_decide hkeeps.own session live now hkeeps.inHand
    · rw [hkeeps.apart.desk_decide heq]
      exact hkeeps.inHand

theorem run (hkeeps : engine.Keeps player)
    (hdecides : ∀ operation ∈ operations, operation.decides = true) :
    (engine.run operations).Keeps player := by
  induction operations generalizing engine with
  | nil => exact hkeeps
  | cons operation rest ih =>
      obtain ⟨session, decision, live, now, rfl⟩ :=
        Operation.decides_eq_true (hdecides operation List.mem_cons_self)
      exact ih (hkeeps.decide session decision live now)
        fun other hmem => hdecides other (List.mem_cons_of_mem _ hmem)

theorem plays (hkeeps : engine.Keeps player) {operation : Operation}
    (hdecides : operation.decides = true) : engine.Plays player operation := by
  obtain ⟨session, decision, live, now, rfl⟩ := Operation.decides_eq_true hdecides
  by_cases heq : decision.player = player
  · subst heq
    exact plays_decide hkeeps.own session live now hkeeps.inHand.inSight
  · intro _
    rw [show (Operation.decide session decision live now).decisionOf? player = none from if_neg heq]
    exact congrArg Desk.current (hkeeps.apart.desk_decide heq session live now)

theorem accesses_run (hkeeps : engine.Keeps player)
    (hdecides : ∀ operation ∈ operations, operation.decides = true) :
    (engine.desk player).accesses <+: ((engine.run operations).desk player).accesses := by
  induction operations generalizing engine with
  | nil => exact List.prefix_rfl
  | cons operation rest ih =>
      obtain ⟨session, decision, live, now, rfl⟩ :=
        Operation.decides_eq_true (hdecides operation List.mem_cons_self)
      have hrest := ih (hkeeps.decide session decision live now)
        fun other hmem => hdecides other (List.mem_cons_of_mem _ hmem)
      refine List.IsPrefix.trans ?_ hrest
      by_cases heq : decision.player = player
      · subst heq
        exact (moves_decide hkeeps.own session live now).accesses
      · have hsame := hkeeps.apart.desk_decide heq session live now
        exact hsame ▸ List.prefix_rfl

end Keeps

/-- A player of whom nothing was stored is taught by the decisions alone. -/
theorem reached_eq_playAll_of_nothing {store : σ} (hnothing : HoldsNothingOf store player)
    (course : Course) (journal : Option Journal)
    (hdecides : ∀ operation ∈ operations, operation.decides = true) :
    let played := course.playAll none (operations.filterMap (Operation.decisionOf? player))
    (reportsOf player (launch (TracedStore.watch store) course journal) operations).map
        DecisionReport.asPersisted = played.1 ∧
      ((reached store course journal operations).desk player).current = played.2 := by
  have hkeeps := keeps_launch hnothing course journal
  have hnone : ((launch (TracedStore.watch store) course journal).desk player).current = none := by
    rw [desk_launch, hnothing.own]
    rfl
  have hgoes : ∀ operation ∈ operations, operation.restarts? = none := by
    intro operation hmem
    obtain ⟨session, decision, live, now, rfl⟩ :=
      Operation.decides_eq_true (hdecides operation hmem)
    rfl
  have hplayed := run_eq_playAll hgoes (by rw [hnone]; rintro _ ⟨⟩)
    fun before operation after hsplit =>
      (hkeeps.run fun other hmem => hdecides other (hsplit ▸ List.mem_append_left _ hmem)).plays
        (hdecides operation (hsplit ▸ List.mem_append_right before List.mem_cons_self))
  rw [hnone] at hplayed
  exact hplayed

end Engine

/-! ### As long as no read works -/

namespace Desk

/-- All that was asked of the store are reads that failed, and no durable record is cached. -/
structure Unread (desk : Desk) (player : String) : Prop where
  accesses : ∀ access ∈ desk.accesses, access = .read player false
  needsRead : desk.NeedsRead

theorem Loads.asks_in_vain {curriculum : Curriculum} {player : String} {now : Instant}
    {desk after : Desk} {loaded : Loaded}
    (hloads : desk.Loads curriculum player now loaded after) (hneeds : desk.NeedsRead)
    (hreads : .read player true ∉ after.accesses) :
    loaded.slot.durable = false ∧ after.accesses = desk.accesses ++ [.read player false] := by
  cases hloads with
  | durable record hcached => cases hneeds _ hcached
  | unread record hcached => exact ⟨rfl, rfl⟩
  | standIn loaded hcached hloaded =>
      subst hloaded
      exact ⟨rfl, rfl⟩
  | unchanged record hneeds hstored hset =>
      exact absurd (List.mem_append_right _ List.mem_cons_self) hreads
  | changed loaded hneeds hloaded =>
      exact absurd (List.mem_append_left _ (List.mem_append_right _ List.mem_cons_self)) hreads

end Desk

namespace Engine

variable {σ : Type} [RecordStore σ] [LawfulStore σ] {engine : Engine (TracedStore σ)}

theorem unread_decide {decision : Decision}
    (hkeyed : (engine.desk decision.player).Keyed decision.player) (session : String)
    (live : LiveAction) (now : Instant)
    (hunread : (engine.desk decision.player).Unread decision.player)
    (hreads : .read decision.player true ∉
      ((engine.decide session decision live now).2.desk decision.player).accesses) :
    ((engine.decide session decision live now).2.desk decision.player).Unread decision.player ∧
      (engine.decide session decision live now).1.persisted = false := by
  have hevaluated := (moves_evaluations hkeyed session live now).accesses
  obtain ⟨htransient, haccesses⟩ :=
    (loads_loadFor hkeyed session now).asks_in_vain hunread.needsRead
      fun hmem => hreads (hevaluated.subset hmem)
  have hfold := (engine.startTurn session decision live now).desk_engine_foldl_judge_of_transient
    session live (decision.situation (some live)) now htransient
    (engine.startTurn session decision live now).report.triggered decision.player
  have hdurable : (engine.endTurn session decision live now).slot.durable = false :=
    ((engine.startTurn session decision live now).durable_foldl_judge session live
      (decision.situation (some live)) now _).trans htransient
  refine ⟨⟨fun access hmem => ?_, fun slot hcached => ?_⟩, ?_⟩
  · rw [desk_decide] at hmem
    have hasked : access ∈ ((engine.loadFor session decision now).2.desk
        decision.player).accesses := congrArg Desk.accesses hfold ▸ hmem
    rw [haccesses] at hasked
    rcases List.mem_append.mp hasked with hbefore | hread
    · exact hunread.accesses access hbefore
    · exact List.mem_singleton.mp hread
  · rw [desk_decide] at hcached
    exact Option.some.inj hcached ▸ hdurable
  · by_contra hpersisted
    have hpromised := (saves_endTurn hkeyed session live now).durable
      (Bool.of_not_eq_false hpersisted)
    exact Bool.false_ne_true (hdurable.symm.trans hpromised)

theorem Keeps.unread_run {player : String} {operations : List Operation}
    (hkeeps : engine.Keeps player)
    (hdecides : ∀ operation ∈ operations, operation.decides = true)
    (hunread : (engine.desk player).Unread player)
    (hreads : .read player true ∉ ((engine.run operations).desk player).accesses) :
    ((engine.run operations).desk player).Unread player ∧
      ∀ report ∈ reportsOf player engine operations, report.persisted = false := by
  induction operations generalizing engine with
  | nil => exact ⟨hunread, fun report hmem => absurd hmem List.not_mem_nil⟩
  | cons operation rest ih =>
      obtain ⟨session, decision, live, now, rfl⟩ :=
        Operation.decides_eq_true (hdecides operation List.mem_cons_self)
      have hrest := fun other hmem => hdecides other (List.mem_cons_of_mem _ hmem)
      have hstep := hkeeps.decide session decision live now
      rw [reportsOf_cons_decide]
      by_cases heq : decision.player = player
      · subst heq
        obtain ⟨hfirst, hreport⟩ := unread_decide hkeeps.own session live now hunread
          fun hmem => hreads ((hstep.accesses_run hrest).subset hmem)
        obtain ⟨hlast, hreports⟩ := ih hstep hrest hfirst hreads
        refine ⟨hlast, fun report hmem => ?_⟩
        rw [if_pos rfl] at hmem
        rcases List.mem_cons.mp hmem with rfl | hmem
        · exact hreport
        · exact hreports report hmem
      · rw [if_neg heq]
        have hsame := hkeeps.apart.desk_decide heq session live now
        exact ih hstep hrest (show ((engine.decide session decision live now).2.desk player).Unread
          player from hsame ▸ hunread) hreads

/-! ### Once it can be written -/

/-- One more decision of a player of whom nothing was stored goes on from all those before. -/
theorem decide_eq_playAll_of_nothing {store : σ} {decision : Decision}
    (hnothing : HoldsNothingOf store decision.player) (course : Course) (journal : Option Journal)
    {operations : List Operation} (hdecides : ∀ operation ∈ operations, operation.decides = true)
    (session : String) (live : LiveAction) (now : Instant) :
    let moves := operations.filterMap (Operation.decisionOf? decision.player)
    let played := course.playAll none (moves ++ [(decision, live, now)])
    let decided := (reached store course journal operations).decide session decision live now
    (reportsOf decision.player (launch (TracedStore.watch store) course journal) operations ++
        [decided.1]).map DecisionReport.asPersisted = played.1 ∧
      (decided.2.desk decision.player).current = played.2 := by
  have hall (operation : Operation)
      (hmem : operation ∈ operations ++ [.decide session decision live now]) :
      operation.decides = true := by
    rcases List.mem_append.mp hmem with hmem | hmem
    · exact hdecides operation hmem
    · rw [List.mem_singleton.mp hmem]
      rfl
  have hplayed := reached_eq_playAll_of_nothing hnothing course journal hall
  have hmoves : [Operation.decide session decision live now].filterMap
      (Operation.decisionOf? decision.player) = [(decision, live, now)] := by
    simp [Operation.decisionOf?]
  have hrun : reached store course journal (operations ++ [.decide session decision live now]) =
      ((reached store course journal operations).decide session decision live now).2 := by
    rw [reached, run_append]
    rfl
  rw [List.filterMap_append, hmoves, reportsOf_append, reportsOf_cons_decide, if_pos rfl,
    hrun] at hplayed
  exact hplayed

theorem map_record_slot?_decide (session : String) (decision : Decision) (live : LiveAction)
    (now : Instant) :
    ((engine.decide session decision live now).2.slot? decision.player).map Slot.record =
      ((engine.decide session decision live now).2.desk decision.player).current := by
  have hcached : (engine.decide session decision live now).2.slot? decision.player =
      some (engine.endTurn session decision live now).slot :=
    (congrArg Desk.cached (engine.desk_decide session decision live now)).trans rfl
  rw [Desk.current, hcached,
    show ((engine.decide session decision live now).2.desk decision.player).cached = _ from hcached]
  rfl

theorem sum_practiced_asPersisted (reports : List DecisionReport) (skill : String) :
    ((reports.map DecisionReport.asPersisted).map fun report => report.practiced skill).sum =
      (reports.map fun report => report.practiced skill).sum := by
  rw [List.map_map]
  rfl

/-- However reads and writes fail, a player of whom nothing was stored gets the reports of a store
that never fails, but for what they say of writes. As long as no read of the player has worked,
nothing was asked of the store but these reads, and no report says that the record is written. After
a decision that has learned something and is reported as written, the cached record is stored, is
the one of the store that never fails, and counts all that the player has practiced. -/
theorem outage_loses_nothing (store : σ) (perfect : MemoryStore) (player : String)
    (hnothing : HoldsNothingOf store player) (hclean : HoldsNothingOf perfect player)
    (course : Course) (journal other : Option Journal) (operations : List Operation)
    (hdecides : ∀ operation ∈ operations, operation.decides = true) :
    (reportsOf player (launch (TracedStore.watch store) course journal) operations).map
        DecisionReport.asPersisted =
      (reportsOf player (launch (TracedStore.watch perfect) course other) operations).map
        DecisionReport.asPersisted ∧
    (Access.read player true ∉ (reached store course journal operations).store.accesses →
      (∀ access ∈ (reached store course journal operations).store.accesses,
        access.player = player → access = .read player false) ∧
      ∀ report ∈ reportsOf player (launch (TracedStore.watch store) course journal) operations,
        report.persisted = false) ∧
    ∀ session decision live now, decision.player = player →
      let decided := (reached store course journal operations).decide session decision live now
      let smooth := (reached perfect course other operations).decide session decision live now
      decided.1.persisted = true →
      (∃ evaluation ∈ decided.1.evaluations, evaluation.outcome.isApplicable = true) →
      ∃ record, decided.2.slot? player = some ⟨record, true⟩ ∧
        held decided.2.store player = some record ∧
        (smooth.2.slot? player).map Slot.record = some record ∧
        ∀ skill, record.opportunities skill =
          min ((reportsOf player (launch (TracedStore.watch store) course journal) operations ++
            [decided.1]).map fun report => report.practiced skill).sum (2 ^ 32 - 1) := by
  have hkeeps := keeps_launch hnothing course journal
  refine ⟨?_, fun hreads => ?_, ?_⟩
  · exact (reached_eq_playAll_of_nothing hnothing course journal hdecides).1.trans
      (reached_eq_playAll_of_nothing hclean course other hdecides).1.symm
  · have hlaunched : ((launch (TracedStore.watch store) course journal).desk player).Unread
        player := by
      rw [desk_launch]
      exact ⟨fun access hmem => absurd hmem List.not_mem_nil, by rintro _ ⟨⟩⟩
    obtain ⟨hunread, hreports⟩ := hkeeps.unread_run hdecides hlaunched
      fun hmem => hreads (List.mem_filter.mp hmem).1
    exact ⟨fun access hmem howner => hunread.accesses access
      (List.mem_filter.mpr ⟨hmem, beq_iff_eq.mpr howner⟩), hreports⟩
  · rintro session decision live now rfl decided smooth hpersisted happlied
    obtain ⟨record, hcached, hstored⟩ :=
      stored_of_persisted (hkeeps.run hdecides).own hpersisted happlied
    obtain ⟨hreports, hcurrent⟩ :=
      decide_eq_playAll_of_nothing hnothing course journal hdecides session live now
    obtain ⟨-, hsmooth⟩ :=
      decide_eq_playAll_of_nothing hclean course other hdecides session live now
    have hrecord : (decided.2.desk decision.player).current = some record :=
      (map_record_slot?_decide session decision live now).symm.trans (congrArg _ hcached)
    refine ⟨record, hcached, hstored, ?_, fun skill => ?_⟩
    · exact (map_record_slot?_decide session decision live now).trans
        (hsmooth.trans (hcurrent.symm.trans hrecord))
    · have hcounted := course.opportunities_playAll none
        (operations.filterMap (Operation.decisionOf? decision.player) ++ [(decision, live, now)])
        skill
      rw [← hreports, ← hcurrent, hrecord, sum_practiced_asPersisted, Option.elim_none,
        Nat.zero_add] at hcounted
      exact hcounted

/-- A player whose first read fails, and the first write after it, is stored as a whole later. -/
theorem outage_loses_nothing_of_two_hands :
    let store : FaultyStore MemoryStore :=
      { inner := .empty, readFails := fun read => read < 2, writeFails := fun write => write = 0 }
    let decision (player : String) : Decision :=
      { player, hand := 1, street := .preflop, flags := { trash := true } }
    let fold (player : String) : Operation :=
      .decide "s" (decision player) { action := .fold } .epoch
    let operations := [fold "ana", fold "bo", fold "ana"]
    (∀ report ∈ reportsOf "ana" (launch (TracedStore.watch store) {} none) [fold "ana", fold "bo"],
      report.persisted = false) ∧
    ∃ record,
      held ((reached store {} none operations).decide "s" (decision "ana") { action := .fold }
        .epoch).2.store "ana" = some record ∧
      record.opportunities "fold_trash_preflop" = 3 := by
  intro store decision fold operations
  have hnothing : HoldsNothingOf store "ana" := .of_empty MemoryStore.find?_empty "ana"
  have hclean : HoldsNothingOf MemoryStore.empty "ana" := .of_empty MemoryStore.find?_empty "ana"
  have hdecides : ∀ operation ∈ operations, operation.decides = true := by decide
  have hunread : Access.read "ana" true ∉
      (reached store {} none [fold "ana", fold "bo"]).store.accesses := by
    decide +kernel
  have hcount : ((reportsOf "ana" (launch (TracedStore.watch store) {} none) operations ++
      [((reached store {} none operations).decide "s" (decision "ana") { action := .fold }
        .epoch).1]).map fun report => report.practiced "fold_trash_preflop").sum = 3 := by
    decide +kernel
  obtain ⟨-, hfails, -⟩ := outage_loses_nothing store .empty "ana" hnothing hclean {} none none
    [fold "ana", fold "bo"] (by decide)
  obtain ⟨-, -, hsaves⟩ := outage_loses_nothing store .empty "ana" hnothing hclean {} none none
    operations hdecides
  obtain ⟨record, -, hstored, -, hcounts⟩ := hsaves "s" (decision "ana") { action := .fold } .epoch
    rfl (by decide +kernel) (by decide +kernel)
  exact ⟨(hfails hunread).2, record, hstored, (hcounts _).trans (by rw [hcount]; rfl)⟩

end Engine

end PokerCoach
