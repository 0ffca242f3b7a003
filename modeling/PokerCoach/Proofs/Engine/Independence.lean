import PokerCoach.Proofs.Engine.Play

/-!
# Players are taught apart

Sessions, other players, failing writes and the journal have no part in what a player is taught. A
player on an engine whose reads work gets the reports and the record of an engine of its own, which
takes in nothing but its decisions, in one session, and never fails.
-/

namespace PokerCoach

open Std Time

/-- The decisions of one player on their own, all in one session, at the times of a clock. -/
def Operation.alone (player session : String) (clock : Nat → Instant)
    (operations : List Operation) : List Operation :=
  (operations.filterMap (decisionOf? player)).mapIdx fun n move =>
    .decide session move.1 move.2.1 (clock n)

namespace Operation

theorem mem_alone {player session : String} {clock : Nat → Instant} {operations : List Operation}
    {operation : Operation} (hmem : operation ∈ alone player session clock operations) :
    ∃ decision live now, operation = .decide session decision live now := by
  obtain ⟨n, hn, rfl⟩ := List.mem_mapIdx.mp hmem
  exact ⟨_, _, _, rfl⟩

theorem decisionOf?_alone (player session : String) (clock : Nat → Instant)
    (operations : List Operation) :
    ((alone player session clock operations).filterMap (decisionOf? player)).map
        (fun move => (move.1, move.2.1)) =
      (operations.filterMap (decisionOf? player)).map fun move => (move.1, move.2.1) := by
  have hplayers : ∀ move ∈ operations.filterMap (decisionOf? player), move.1.player = player := by
    intro move hmem
    obtain ⟨operation, -, hdecision⟩ := List.mem_filterMap.mp hmem
    obtain ⟨-, -, hplayer⟩ := decisionOf?_eq_some hdecision
    exact hplayer
  unfold alone
  -- The induction is on the moves; the clock goes on with each of them.
  generalize operations.filterMap (decisionOf? player) = moves at hplayers ⊢
  induction moves generalizing clock with
  | nil => rfl
  | cons move rest ih =>
      have hfirst := hplayers move List.mem_cons_self
      have hrest := ih (fun n => clock (n + 1)) fun other hmem =>
        hplayers other (List.mem_cons_of_mem move hmem)
      rw [List.mapIdx_cons, List.filterMap_cons_some (by simp [decisionOf?, hfirst]; rfl),
        List.map_cons, List.map_cons, hrest]

end Operation

namespace Engine

variable {σ : Type} [RecordStore σ] [LawfulStore σ] {engine : Engine (TracedStore σ)}
  (hkeyed : engine.Keyed)
include hkeyed

/-! ### Where the current record is found -/

/-- Reads that work find the current record always. -/
theorem Keyed.finds_of_unfailing {player : String} {operations : List Operation}
    (hgoes : ∀ operation ∈ operations, operation.restarts? = none)
    (htrusted : (engine.desk player).Trusted)
    (hafter : ((engine.run operations).desk player).Unfailing) {before : List Operation}
    {operation : Operation} {after : List Operation}
    (hsplit : operations = before ++ operation :: after) :
    (engine.run before).Finds player operation := by
  subst hsplit
  have hbefore := fun other hmem => hgoes other (List.mem_append_left _ hmem)
  have hnow := hgoes operation (List.mem_append_right _ List.mem_cons_self)
  have hrest := fun other hmem =>
    hgoes other (List.mem_append_right before (List.mem_cons_of_mem operation hmem))
  have hreached := hkeyed.run before
  rw [run_append, run_cons] at hafter
  have hstepped := hafter.of_accesses ((hreached.step operation).moves_run hrest player).accesses
  have hfirst := hstepped.of_accesses (hreached.moves_step hnow player).accesses
  have htrust := ((hkeyed.moves_run hbefore player).continues htrusted hfirst).1
  exact ⟨.inr ⟨htrust, fun _ => hstepped⟩, fun _ => htrust⟩

end Engine

namespace Desk

/-- Nothing is stored that is not cached, too. -/
def InHand (desk : Desk) : Prop :=
  desk.stored = none ∨ ∃ record, desk.cached = some ⟨record, true⟩

theorem InHand.inSight {desk after : Desk} (hhand : desk.InHand) : desk.InSight after := by
  refine hhand.imp_right ?_
  rintro ⟨record, hcached⟩
  refine ⟨fun slot hslot => ?_, fun hnone => ?_⟩
  · cases hcached.symm.trans hslot
    rfl
  · cases hcached.symm.trans hnone

theorem Loads.stored_of_transient {curriculum : Curriculum} {player : String} {now : Instant}
    {desk after : Desk} {loaded : Loaded}
    (hloads : desk.Loads curriculum player now loaded after)
    (htransient : loaded.slot.durable = false) (hhand : desk.InHand) : after.stored = none := by
  cases hloads with
  | durable record hcached => cases htransient
  | unread record hcached =>
      rcases hhand with hstored | ⟨other, hother⟩
      · exact hstored
      · cases hcached.symm.trans hother
  | standIn loaded hcached hloaded =>
      rcases hhand with hstored | ⟨other, hother⟩
      · exact hstored
      · cases hcached.symm.trans hother
  | unchanged record hneeds hstored hset => cases htransient
  | changed loaded hneeds hloaded =>
      rw [hloaded] at htransient
      cases htransient

end Desk

namespace Engine

variable {σ : Type} [RecordStore σ] [LawfulStore σ] {engine : Engine (TracedStore σ)}

theorem inHand_decide {decision : Decision}
    (hkeyed : (engine.desk decision.player).Keyed decision.player) (session : String)
    (live : LiveAction) (now : Instant) (hhand : (engine.desk decision.player).InHand) :
    ((engine.decide session decision live now).2.desk decision.player).InHand := by
  have hdurable := (engine.startTurn session decision live now).durable_foldl_judge session live
    (decision.situation (some live)) now
    (engine.startTurn session decision live now).report.triggered
  have hcached : ((engine.decide session decision live now).2.desk decision.player).cached =
      some ⟨(engine.endTurn session decision live now).slot.record,
        (engine.startTurn session decision live now).slot.durable⟩ := by
    rw [desk_decide, ← hdurable]
    rfl
  cases hslot : (engine.startTurn session decision live now).slot.durable with
  | true => exact .inr ⟨_, hslot ▸ hcached⟩
  | false =>
      have hloaded := (loads_loadFor hkeyed session now).stored_of_transient hslot hhand
      have hfold :=
        (engine.startTurn session decision live now).desk_engine_foldl_judge_of_transient
          session live (decision.situation (some live)) now hslot
          (engine.startTurn session decision live now).report.triggered decision.player
      left
      rw [desk_decide]
      exact (congrArg Desk.stored hfold).trans hloaded

variable (hkeyed : engine.Keyed)
include hkeyed

/-- A session that is never ended keeps in hand what is stored. -/
theorem Keyed.inHand_step {operation : Operation} {player : String}
    (hgoes : operation.restarts? = none) (hknown : operation.onboards = false)
    (hstays : operation.closes = false) (hhand : (engine.desk player).InHand) :
    ((engine.step operation).desk player).InHand := by
  cases hdecision : operation.decisionOf? player with
  | none =>
      rcases hkeyed.desk_step_of_decisionOf? hgoes hknown hdecision with
        hsame | ⟨asked, worked, hread⟩ | ⟨hcloses, -⟩
      · rwa [hsame]
      · rw [hread]
        exact hhand
      · cases hstays.symm.trans hcloses
  | some move =>
      obtain ⟨decision, live, now⟩ := move
      obtain ⟨session, rfl, rfl⟩ := Operation.decisionOf?_eq_some hdecision
      exact inHand_decide (hkeyed decision.player) session live now hhand

/-- Where no session ends, the current record is found whatever fails. -/
theorem Keyed.finds_of_inHand {player : String} {operations : List Operation}
    (hgoes : ∀ operation ∈ operations, operation.restarts? = none ∧ operation.onboards = false)
    (hstays : ∀ operation ∈ operations, operation.closes = false)
    (hhand : (engine.desk player).InHand) {before : List Operation}
    {operation : Operation} {after : List Operation}
    (hsplit : operations = before ++ operation :: after) :
    (engine.run before).Finds player operation := by
  induction before generalizing engine operations with
  | nil =>
      subst hsplit
      have hopen := hstays operation List.mem_cons_self
      exact ⟨hhand.inSight, fun hcloses => by cases hopen.symm.trans hcloses⟩
  | cons first rest ih =>
      subst hsplit
      obtain ⟨hfirst, hknown⟩ := hgoes first List.mem_cons_self
      exact ih (hkeyed.step first) (fun other hmem => hgoes other (List.mem_cons_of_mem first hmem))
        (fun other hmem => hstays other (List.mem_cons_of_mem first hmem))
        (hkeyed.inHand_step hfirst hknown (hstays first List.mem_cons_self) hhand) rfl

/-! ### What is read in the end -/

omit hkeyed in
/-- Asking for the progress gives the current record, unless the store has to be read and fails. -/
theorem progress_eq_current {player : String}
    (hrows : ∀ record, (engine.desk player).current = some record →
      record.missing engine.curriculum = [])
    (hread : (engine.desk player).cached = none → (engine.fetch player).1.isOk = true)
    (now : Instant) :
    (engine.progress player now).1 =
      (engine.desk player).current.elim (.error (.playerNotFound player)) .ok := by
  unfold progress
  split
  · rename_i slot hslot
    have hcached : (engine.desk player).cached = some slot := hslot
    simp [Desk.current, hcached]
  · rename_i hslot
    have hcached : (engine.desk player).cached = none := hslot
    have hcurrent : (engine.desk player).current = (engine.desk player).stored := by
      simp [Desk.current, hcached]
    rcases engine.fetch_eq player with hfound | ⟨error, hfailed⟩
    · rw [hcurrent]
      rw [hcurrent] at hrows
      dsimp only
      rw [hfound]
      cases hstored : (engine.desk player).stored with
      | none => rfl
      | some record =>
          dsimp only
          rw [PlayerRecord.backfill_eq_of_missing _ _ now]
          · rfl
          · exact hrows record hstored
    · rw [hfailed] at hread
      cases hread hcached

omit hkeyed in
theorem isOk_fetch_of_unfailing {player : String} {now : Instant}
    (hafter : ((engine.progress player now).2.desk player).Unfailing)
    (hcached : (engine.desk player).cached = none) : (engine.fetch player).1.isOk = true := by
  have hslot : engine.slot? player = none := hcached
  have hfetched : (engine.progress player now).2 = (engine.fetch player).2 := by
    unfold progress
    rw [hslot]
    rcases engine.fetch player with ⟨_ | _ | _, fetched⟩ <;> rfl
  rw [hfetched, desk_fetch, if_pos rfl] at hafter
  cases hworked : (engine.fetch player).1.isOk with
  | true => rfl
  | false =>
      rw [hworked] at hafter
      exact absurd hafter (Desk.not_unfailing_read _ player)

end Engine

namespace Engine

variable {σ : Type} [RecordStore σ] [LawfulStore σ]

/-- What a run on a new engine reports to a player and leaves of the record, if the current record
is found throughout, are those of the decisions alone. -/
theorem reached_eq_playAll {store : σ} (hempty : ∀ player, held store player = none)
    (course : Course) (journal : Option Journal) {player : String} {operations : List Operation}
    (hgoes : ∀ operation ∈ operations, operation.restarts? = none ∧ operation.onboards = false)
    (hfinds : ∀ before operation after, operations = before ++ operation :: after →
      (reached store course journal before).Finds player operation)
    (hread : ((reached store course journal operations).desk player).cached = none →
      ((reached store course journal operations).fetch player).1.isOk = true) (now : Instant) :
    let played := course.playAll none (operations.filterMap (Operation.decisionOf? player))
    (reportsOf player (launch (TracedStore.watch store) course journal) operations).map
        DecisionReport.asPersisted = played.1 ∧
      ((reached store course journal operations).progress player now).1 =
        played.2.elim (.error (.playerNotFound player)) .ok := by
  have hkeyed := keyed_launch_of_empty hempty course journal
  have hnone : ((launch (TracedStore.watch store) course journal).desk player).current = none := by
    rw [desk_launch, hempty player]
    rfl
  have hplayed := run_eq_playAll (fun operation hmem => (hgoes operation hmem).1)
    (by rw [hnone]; rintro _ ⟨⟩) fun before operation after hsplit => by
      obtain ⟨hgoes, hknown⟩ :=
        hgoes operation (hsplit ▸ List.mem_append_right before List.mem_cons_self)
      exact (hkeyed.run before).plays_of_finds hgoes hknown
        (hfinds before operation after hsplit)
  rw [hnone] at hplayed
  have hcourse : (reached store course journal operations).curriculum = course.curriculum := by
    refine curriculum_run _ fun operation hmem other hrestarts => ?_
    cases (hgoes operation hmem).1.symm.trans hrestarts
  refine ⟨hplayed.1, ?_⟩
  rw [progress_eq_current ?_ hread now, hplayed.2]
  · rfl
  · rw [hplayed.2, hcourse]
    exact fun record hrecord => (course.isSetUp_playAll (by rintro _ ⟨⟩) _ record hrecord).2

/-- Over a store that is empty and whose reads of a player work, whatever becomes of its writes and
of the journal, the player gets the reports and the record, but for the times, of a new engine on a
store that never fails, which takes in only the decisions of the player, in one session. -/
theorem player_taught_apart (store : σ) (hempty : ∀ player, held store player = none)
    (course : Course) (journal other : Option Journal) (operations : List Operation)
    (hgoes : ∀ operation ∈ operations, operation.restarts? = none ∧ operation.onboards = false)
    (player : String) (now : Instant)
    (hreads : Access.read player false ∉
      ((reached store course journal operations).progress player now).2.store.accesses)
    (session : String) (clock : Nat → Instant) (later : Instant) :
    let alone := Operation.alone player session clock operations
    (reportsOf player (launch (TracedStore.watch store) course journal) operations).map
        DecisionReport.asPersisted =
      (reportsOf player (launch (TracedStore.watch MemoryStore.empty) course other) alone).map
        DecisionReport.asPersisted ∧
    ((reached store course journal operations).progress player now).1.map PlayerRecord.timeless =
      ((reached MemoryStore.empty course other alone).progress player later).1.map
        PlayerRecord.timeless := by
  intro alone
  have hkeyed := keyed_launch_of_empty hempty course journal
  have hfinal := Desk.unfailing_desk hreads
  have hafter := hfinal.of_accesses
    (moves_progress player now player).accesses
  have htrusted : ((launch (TracedStore.watch store) course journal).desk player).Trusted := by
    rw [desk_launch]
    rintro _ ⟨⟩
  have hshared := reached_eq_playAll hempty course journal hgoes
    (fun _ _ _ =>
      hkeyed.finds_of_unfailing (fun operation hmem => (hgoes operation hmem).1) htrusted hafter)
    (isOk_fetch_of_unfailing hfinal) now
  have halone (operation : Operation) (hmem : operation ∈ alone) :
      (operation.restarts? = none ∧ operation.onboards = false) ∧ operation.closes = false := by
    obtain ⟨decision, live, time, rfl⟩ := Operation.mem_alone hmem
    exact ⟨⟨rfl, rfl⟩, rfl⟩
  have hnothing : ∀ player, held MemoryStore.empty player = none := MemoryStore.find?_empty
  have hown := reached_eq_playAll hnothing course other
    (fun operation hmem => (halone operation hmem).1)
    (fun _ _ _ => (keyed_launch_of_empty hnothing course other).finds_of_inHand
      (fun operation hmem => (halone operation hmem).1)
      (fun operation hmem => (halone operation hmem).2) (.inl (hnothing player)))
    (fun _ => rfl) later
  have hsame := course.playAll_congr
    (Operation.decisionOf?_alone player session clock operations).symm
  let decisions := operations.filterMap (Operation.decisionOf? player)
  let ownDecisions := alone.filterMap (Operation.decisionOf? player)
  refine ⟨?_, ?_⟩
  · calc (reportsOf player (launch (TracedStore.watch store) course journal) operations).map
          DecisionReport.asPersisted
        = (course.playAll none decisions).1 := hshared.1
      _ = (course.playAll none ownDecisions).1 := hsame.1
      _ = (reportsOf player (launch (TracedStore.watch MemoryStore.empty) course other) alone).map
          DecisionReport.asPersisted := hown.1.symm
  · have htimeless (last : Option PlayerRecord) :
        (last.elim (.error (.playerNotFound player)) .ok : Except Error PlayerRecord).map
          PlayerRecord.timeless =
        (last.map PlayerRecord.timeless).elim (.error (.playerNotFound player)) .ok := by
      cases last <;> rfl
    calc ((reached store course journal operations).progress player now).1.map
          PlayerRecord.timeless
        = ((course.playAll none decisions).2.map PlayerRecord.timeless).elim
            (.error (.playerNotFound player)) .ok := by rw [hshared.2, htimeless]
      _ = ((course.playAll none ownDecisions).2.map PlayerRecord.timeless).elim
            (.error (.playerNotFound player)) .ok := by rw [hsame.2]
      _ = ((reached MemoryStore.empty course other alone).progress player later).1.map
            PlayerRecord.timeless := by rw [hown.2, htimeless]

/-- A player whose first record is not written plays on after another, and after the session. -/
theorem player_taught_apart_from_another :
    let store : FaultyStore MemoryStore := { inner := .empty, writeFails := fun write => write = 0 }
    let fold (player session : String) : Operation :=
      .decide session { player, hand := 1, street := .preflop, flags := { trash := true } }
        { action := .fold } .epoch
    let operations := [fold "ana" "s", fold "bo" "t", .endSession "s" .epoch, fold "ana" "t"]
    (reportsOf "ana" (launch (TracedStore.watch store) {} none) operations).map
        DecisionReport.asPersisted =
      (reportsOf "ana" (launch (TracedStore.watch MemoryStore.empty) {} none)
        (Operation.alone "ana" "u" (fun _ => .epoch) operations)).map
          DecisionReport.asPersisted := by
  intro store fold operations
  have hgoes : ∀ operation ∈ operations,
      operation.restarts? = none ∧ operation.onboards = false := by
    simp [operations, fold, Operation.restarts?, Operation.onboards]
  have hreads : Access.read "ana" false ∉
      ((reached store {} none operations).progress "ana" .epoch).2.store.accesses := by
    decide +kernel
  exact (player_taught_apart store MemoryStore.find?_empty {} none none operations hgoes "ana"
    .epoch hreads "u" (fun _ => .epoch) .epoch).1

end Engine

end PokerCoach
