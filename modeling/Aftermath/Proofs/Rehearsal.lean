import Aftermath.Proofs.Backend
import Aftermath.Rehearsal.Run

/-! Rehearsals go by the rules. Whatever a script does, its hub changes by moves only, and together
with a connection in memory only as such a pair can change. So what holds of every hub that can be
reached, and of every run of a hub whose connection reacts, holds at each step of a rehearsal. -/

namespace Aftermath.Rehearsal

namespace Stage

/-- The parts of a stage that the rules are about. -/
def core (st : Stage) : Hub × Transport × List (SessionId × Nat) × List Duty :=
  (st.hub, st.transport, st.mails, st.duties)

/-- What is on the stage has come about from nothing by the rules. A transport that is laid out by
hand has no rules, so there the hub is all that counts. -/
def Lawful (st : Stage) : Prop :=
  match st.transport with
  | .memory m => ∃ x os, Backend.Fresh x ∧ x.run? os = some ⟨⟨st.hub, m⟩, st.mails, st.duties⟩
  | .manual _ => st.hub.Reachable

variable {st st' : Stage}

theorem lawful_memory {m : Memory} (ht : st.transport = .memory m) :
    st.Lawful ↔
      ∃ x os, Backend.Fresh x ∧ x.run? os = some ⟨⟨st.hub, m⟩, st.mails, st.duties⟩ := by
  unfold Lawful
  rw [ht]

theorem lawful_manual {m : Manual} (ht : st.transport = .manual m) :
    st.Lawful ↔ st.hub.Reachable := by
  unfold Lawful
  rw [ht]

theorem Lawful.of_core (hl : st.Lawful) (hc : st'.core = st.core) : st'.Lawful := by
  obtain ⟨hh, ht, hm, hd⟩ : st'.hub = st.hub ∧ st'.transport = st.transport ∧
      st'.mails = st.mails ∧ st'.duties = st.duties := by
    simpa only [core, Prod.mk.injEq] using hc
  unfold Lawful
  rw [hh, ht, hm, hd]
  exact hl

/-- The hub of a stage that has come about by the rules can be reached. -/
theorem Lawful.reachable (hl : st.Lawful) : st.hub.Reachable := by
  cases ht : st.transport with
  | memory m =>
    obtain ⟨x, os, hx, hrun⟩ := (lawful_memory ht).1 hl
    exact (Backend.linked_run hx.linked hrun).hub
  | manual m => exact (lawful_manual ht).1 hl

/-! ### What does not touch the rules -/

theorem core_foldl {α : Type} {f : Stage → α → Stage} (hf : ∀ st a, (f st a).core = st.core)
    (st : Stage) (l : List α) : (l.foldl f st).core = st.core := by
  induction l generalizing st with
  | nil => rfl
  | cons a l ih => exact (ih (f st a)).trans (hf st a)

theorem core_wake (st : Stage) (t : Task) : (st.wake t).core = st.core := by
  unfold wake
  split <;> rfl

theorem core_wakeSession (st : Stage) (sid : SessionId) : (st.wakeSession sid).core = st.core := by
  unfold wakeSession
  split
  · split
    · rfl
    · exact core_wake st _
  · rfl

theorem core_attend (st : Stage) (x : Happening) : (st.attend x).core = st.core := by
  unfold attend
  cases x with
  | reported =>
    dsimp only
    split
    · exact core_wakeSession _ _
    · rfl
  | revoked =>
    dsimp only
    split
    · rfl
    · split
      · exact core_wakeSession _ _
      · rfl
  | disarmed | closing => dsimp only; split <;> rfl
  | _ => rfl

theorem core_hearken (st : Stage) (m : Memory) : (st.hearken m).core = st.core := by
  refine core_foldl (fun st l => ?_) st _
  split
  · exact core_wake st _
  · rfl

/-- Becoming another hub changes nothing but the hub. -/
theorem core_become (st : Stage) (hub : Hub) : (st.become hub).core = { st with hub }.core :=
  core_foldl core_attend _ _

/-! ### What happens to the hub -/

theorem Lawful.occur {m : Memory} (hl : st.Lawful) (ht : st.transport = .memory m) (o : Occasion) :
    (st.occur m o).Lawful := by
  unfold Stage.occur
  split
  · exact hl
  · next y ho =>
    obtain ⟨x, os, hx, hrun⟩ := (lawful_memory ht).1 hl
    refine Lawful.of_core ?_ (core_become _ _)
    refine (lawful_memory rfl).2 ⟨x, os ++ [o], hx, ?_⟩
    rw [Backend.run?_append, hrun]
    show (Backend.occur? _ o).bind _ = _
    rw [ho]
    rfl

theorem Lawful.act {m : Memory} (hl : st.Lawful) (ht : st.transport = .memory m) (a : Act) :
    (st.act m a).Lawful := hl.occur ht (.act a)

theorem Lawful.act_of_core {m : Memory} (hl : st.Lawful) (ht : st.transport = .memory m)
    (hc : st'.core = st.core) (a : Act) : (st'.act m a).Lawful :=
  (hl.of_core hc).act ((congrArg (·.2.1) hc).trans ht) a

theorem Lawful.move (hl : st.Lawful) (m : Move) : (st.move m).Lawful := by
  unfold Stage.move
  split
  · next ht => exact hl.act ht _
  · next c ht =>
    split
    · exact hl
    · next hub hm =>
      have hr := ((lawful_manual ht).1 hl).later (Hub.Later.refl.move hm)
      have hl' : Lawful { st with hub } :=
        (lawful_manual (show transport { st with hub } = _ from ht)).2 hr
      exact hl'.of_core (core_become st hub)

theorem Lawful.push (hl : st.Lawful) (c : Context) : (st.push c).Lawful := hl

theorem Lawful.pop (hl : st.Lawful) : st.pop.Lawful := hl

theorem Lawful.call (hl : st.Lawful) (m : Move) (r : Return) : (st.call m r).Lawful :=
  (hl.push _).move m

theorem Lawful.token (hl : st.Lawful) (name : String) : (st.token name).2.Lawful := by
  unfold Stage.token
  split
  · exact hl
  · refine Lawful.move ?_ .newToken
    exact hl

theorem Lawful.modal (hl : st.Lawful) (name : String) : (st.modal name).2.Lawful := by
  unfold Stage.modal
  split
  · exact hl
  · refine Lawful.move ?_ .newModal
    exact hl

theorem Lawful.addHook (hl : st.Lawful) (k : HookText) : (st.addHook k).Lawful := hl

theorem Lawful.unpark (hl : st.Lawful) (sid : SessionId) : (st.unpark sid).Lawful := hl

theorem Lawful.link (hl : st.Lawful) (sid : SessionId) (n : Nat) (s : SubId) (l : Link) :
    (st.link sid n s l).Lawful := by
  cases l with
  | handler body tag => exact (hl.addHook _).move _
  | timeoutHandler ms body tag => exact (hl.addHook _).move _
  | timeout ms => exact hl.move _

theorem Lawful.links (hl : st.Lawful) (sid : SessionId) (n : Nat) (s : SubId) (chain : List Link) :
    (chain.foldl (fun st l => Stage.link st sid n s l) st).Lawful := by
  induction chain generalizing st with
  | nil => exact hl
  | cons l chain ih => exact ih (hl.link sid n s l)

/-! ### What actions do -/

theorem Lawful.onMemory (hl : st.Lawful) {f : Memory → Stage}
    (hf : ∀ m, st.transport = .memory m → (f m).Lawful) : (st.onMemory f).Lawful := by
  unfold Stage.onMemory
  split
  · next m ht => exact hf m ht
  · exact hl

/-- A transport that is laid out by hand may be laid out otherwise. -/
theorem Lawful.relaid {m m' : Manual} (hl : st.Lawful) (ht : st.transport = .manual m)
    (hh : st'.hub = st.hub) (ht' : st'.transport = .manual m') : st'.Lawful := by
  rw [lawful_manual ht', hh]
  exact (lawful_manual ht).1 hl

theorem Lawful.onManual (hl : st.Lawful) {f : Manual → Stage}
    (hf : ∀ m, st.transport = .manual m → (f m).Lawful) : (st.onManual f).Lawful := by
  unfold Stage.onManual
  split
  · next m ht => exact hf m ht
  · exact hl

theorem Lawful.onSink (hl : st.Lawful) (n : Nat) {f : SubId → Stage} (hf : ∀ s, (f s).Lawful) :
    (st.onSink n f).Lawful := by
  refine hl.onManual fun m _ => ?_
  split
  · exact hf _
  · exact hl

theorem Lawful.emit (hl : st.Lawful) (m : Memory) (e : Envelope) (times : Nat) :
    (st.emit m e times).Lawful := by
  have hl : (times.repeat (fun st => st.onMemory fun m => st.act m (.publish e)) st).Lawful := by
    induction times with
    | zero => exact hl
    | succ n ih => exact ih.onMemory fun m ht => ih.act ht _
  unfold Stage.emit
  dsimp only
  split
  · exact hl
  · exact hl.of_core (core_hearken _ m)

theorem Lawful.enqueue (hl : st.Lawful) (sid : SessionId) (polled : Bool) :
    (st.enqueue sid polled).Lawful := by
  unfold Stage.enqueue
  split
  · exact hl
  · exact hl

theorem Lawful.start (hl : st.Lawful) (name : String) (mode : Mode) (command : String)
    (polled : Bool) (scope : List ScopeItem) :
    (st.start name mode command polled scope).Lawful := by
  let player : Player := { name, mode, command, polled, scope }
  have hl : Lawful { st with players := st.players ++ [player] } := hl
  unfold Stage.start
  cases mode with
  | start keep => exact (hl.move _).call _ _
  | token t => exact ((hl.token t).move _).enqueue _ polled
  | modalRun m => exact ((hl.modal m).move _).enqueue _ polled
  | modalPost m => exact ((hl.modal m).move _).enqueue _ polled
  | run => exact (hl.move _).enqueue _ polled
  | post => exact (hl.move _).enqueue _ polled

theorem Lawful.drop (hl : st.Lawful) (sid : SessionId) (p : Player) : (st.drop sid p).Lawful := by
  unfold Stage.drop
  split
  · exact hl
  · split
    · exact hl
    · dsimp only
      split
      · refine Lawful.call ?_ _ _
        exact hl
      · split
        · exact hl
        · split
          · exact hl
          · exact Lawful.of_core hl (core_wake _ _)

/-- Whatever an action does, it goes by the rules. -/
theorem Lawful.perform (hl : st.Lawful) (a : Action) : (st.perform a).Lawful := by
  unfold Stage.perform
  cases a with
  | publish e times => exact hl.onMemory fun m _ => hl.emit m e times
  | failNextPost | reactEmit | reactDisconnect | refuse | latency | reconnect | disconnect =>
    exact hl.onMemory fun m ht => hl.occur ht _
  | connection | describeConnection => exact hl.onMemory fun _ _ => hl
  | onSubscribe | onUnsubscribe | onPost => exact hl.onManual fun m ht => hl.relaid ht rfl rfl
  | deliver | fail => exact hl.onSink _ fun s => hl.call _ _
  | deliverAll | failAll => exact hl.onManual fun _ _ => hl
  | sink | describeSink => exact hl.onSink _ fun _ => hl
  | start => exact hl.start _ _ _ _ _
  | poll =>
    dsimp only
    split
    · split
      · exact hl.call _ _
      · exact hl
    · exact hl
  | drop =>
    dsimp only
    split
    · exact hl.drop _ _
    · exact hl
  | cancel | cancelSub | register =>
    dsimp only
    split
    · exact hl.call _ _
    · exact hl
  | session =>
    dsimp only
    split
    · split
      · exact hl
      · exact hl
    · exact hl
  | chainSub =>
    dsimp only
    split
    · exact hl.link _ _ _ _
    · exact hl
  | cancelToken name => exact (hl.token name).move _
  | token name => exact hl.token name
  | busy name | busySeen name | describeModal name => exact hl.modal name
  | inspect | sub | describeSub | describeRegistry | scopeLength | describeScope =>
    dsimp only
    split
    · exact hl
    · exact hl
  | coordinator | describeCoordinator | batch => exact hl

/-! ### What the surroundings do -/

theorem Lawful.subscribe (hl : st.Lawful) (s : SubId) : (st.subscribe s).Lawful := by
  unfold Stage.subscribe
  dsimp only
  split
  · next m ht =>
    split
    · exact hl.act ht .serve
    · refine hl.act_of_core ht ?_ .serve
      rfl
  · next m ht => exact hl.relaid ht rfl rfl

theorem Lawful.unsubscribe (hl : st.Lawful) (l : LeaseId) : (st.unsubscribe l).Lawful := by
  unfold Stage.unsubscribe
  dsimp only
  split
  · next m ht =>
    refine hl.act_of_core ht ?_ .serve
    split
    · exact core_wake st _
    · rfl
  · next m ht => exact hl.relaid ht rfl rfl

theorem core_park (st : Stage) (sid : SessionId) (ms : Nat) (c : Context) :
    (st.park sid ms c).core = st.core := by
  unfold park
  dsimp only
  split <;> rfl

theorem Lawful.park (hl : st.Lawful) (sid : SessionId) (ms : Nat) (c : Context) :
    (st.park sid ms c).Lawful := hl.of_core (core_park st sid ms c)

theorem Lawful.post (hl : st.Lawful) (sid : SessionId) : (st.post sid).Lawful := by
  unfold Stage.post
  split
  · split
    · exact hl
    · exact hl
    · exact (hl.park sid _ _).move _
  · next m ht => exact hl.relaid ht rfl rfl

theorem Lawful.receivePost {m : Memory} (hl : st.Lawful) (ht : st.transport = .memory m)
    (sid : SessionId) : (st.receivePost m sid).Lawful := by
  refine hl.act_of_core ht ?_ _
  split
  · rfl
  · refine core_foldl (fun _ _ => ?_) _ _
    rfl

theorem Lawful.beginHook (hl : st.Lawful) (sid : SessionId) (k : HookId) (arg : Argument) :
    (st.beginHook sid k arg).Lawful := by
  unfold Stage.beginHook
  split
  · exact hl
  · exact hl.move _

theorem Lawful.resume (hl : st.Lawful) (sid : SessionId) (due : Nat) (c : Context) (m : Move) :
    (st.resume sid due c m).Lawful := by
  unfold Stage.resume
  split
  · exact hl
  · exact hl.move m

/-- Whatever a frame of the hub is served with, it goes by the rules. -/
theorem Lawful.serve (hl : st.Lawful) : st.serve.Lawful := by
  unfold Stage.serve
  split
  · exact hl
  · exact hl.subscribe _
  · exact hl.unsubscribe _
  · split
    · exact hl.resume _ _ _ _
    · exact hl.beginHook _ _ _
  · split
    · exact hl.resume _ _ _ _
    · exact hl.post _
  · exact hl

/-! ### How contexts go on -/

theorem Lawful.runScope (hl : st.Lawful) (sid : SessionId) (rest : List ScopeItem) :
    (st.runScope sid rest).Lawful := by
  cases rest with
  | nil => exact hl.pop.move .configured
  | cons item rest =>
    cases item with
    | hook => refine Lawful.move ?_ _; exact hl
    | defaultTimeout => refine Lawful.move ?_ _; exact hl
    | subscribe => refine Lawful.call ?_ _ _; exact hl
    | act => refine Lawful.perform ?_ _; exact hl

theorem Lawful.runBody (hl : st.Lawful) (sid : SessionId) (label : String) (rest : List Entry) :
    (st.runBody sid label rest).Lawful := by
  cases rest with
  | nil => refine Lawful.move ?_ (.hookReplied .done); exact hl
  | cons entry rest =>
    cases entry with
    | sleep ms =>
      unfold Stage.runBody
      dsimp only
      split
      · exact hl
      · exact (hl.pop.park _ _ _).move _
    | fail => refine Lawful.move ?_ _; exact hl
    | panic => refine Lawful.move ?_ _; exact hl
    | act => refine Lawful.perform ?_ _; exact hl

theorem Lawful.runScript (hl : st.Lawful) (rest : List Action) (closing : Closing) :
    (st.runScript rest closing).Lawful := by
  cases rest with
  | cons a rest => refine Lawful.perform ?_ a; exact hl
  | nil =>
    have hl := hl.pop
    unfold Stage.runScript
    dsimp only
    split
    · exact hl.move _
    · exact hl.move _
    · exact hl.move _
    · exact hl.move _
    · exact hl.move _
    · exact hl
    · exact (hl.park _ _ _).move _
    · exact hl.move _

theorem Lawful.afterRun (hl : st.Lawful) (sid : SessionId) : (st.afterRun sid).Lawful := by
  unfold Stage.afterRun
  split
  · exact hl
  · split
    · exact hl
    · split
      · exact (hl.unpark sid).call _ _
      · split
        · exact Lawful.of_core hl (core_wake _ _)
        · exact hl

theorem Lawful.finishCall (hl : st.Lawful) (r : Return) : (st.finishCall r).Lawful := by
  cases r with
  | subscribed sid s chain => refine Lawful.links ?_ sid _ s chain; exact hl
  | polled sid =>
    unfold Stage.finishCall
    dsimp only
    split
    · exact hl
    · exact hl
  | ran sid => exact hl.afterRun sid
  | _ => exact hl

theorem Lawful.give (hl : st.Lawful) (r : Reply) : (st.give r).Lawful := by
  unfold Stage.give
  split <;> exact hl

/-- However the innermost context goes on, it goes by the rules. -/
theorem Lawful.go (hl : st.Lawful) : st.go.Lawful := by
  unfold Stage.go
  split
  · exact hl
  · exact hl
  · exact hl
  · exact hl
  · refine Lawful.perform ?_ _; exact hl
  · exact hl
  · refine Lawful.call ?_ _ _; exact hl
  · split
    · exact hl.pop.finishCall _
    · exact hl.serve
  · exact hl.runScope _ _
  · exact hl.runBody _ _ _
  · exact hl.runScript _ _
  · split
    · next ht => exact hl.pop.receivePost ht _
    · exact hl

/-! ### What tasks do -/

theorem Lawful.runListener {m : Memory} (hl : st.Lawful) (ht : st.transport = .memory m)
    (l : LeaseId) : (st.runListener m l).Lawful := by
  unfold Stage.runListener
  split
  · exact hl
  · dsimp only
    split
    · refine hl.act_of_core ht ?_ _
      refine core_foldl (fun _ _ => ?_) st _
      rfl
    · refine hl.act_of_core ht ?_ _
      refine core_foldl (fun _ _ => ?_) st _
      rfl

theorem Lawful.runReaction {m : Memory} (hl : st.Lawful) (ht : st.transport = .memory m) (n : Nat) :
    (st.runReaction m n).Lawful := by
  unfold Stage.runReaction
  split
  · exact hl
  · split
    · exact hl
    · split
      · refine Lawful.of_core (hl.occur ht (.due n)) ?_
        exact core_hearken _ m
      · exact hl.occur ht (.due n)

theorem Lawful.runTask (hl : st.Lawful) (t : Task) : (st.runTask t).Lawful := by
  unfold Stage.runTask
  split
  · split
    · split
      · exact (hl.unpark _).call _ _
      · exact hl.call _ _
    · exact hl
  · dsimp only
    split
    · split
      · exact hl
      · exact hl.call _ _
    · exact hl.call _ _
  · next ht => exact hl.runListener ht _
  · next ht => exact hl.runReaction ht _
  · exact hl

/-! ### The whole -/

/-- A small step goes by the rules. -/
theorem Lawful.tick (hl : st.Lawful) (ht : st.tick? = some st') : st'.Lawful := by
  unfold tick? at ht
  split at ht
  · cases ht
    exact hl.move .step
  · split at ht
    · cases ht
      refine Lawful.give ?_ _
      exact hl
    · cases ht
      exact hl
    · cases ht
      exact hl.go
    · split at ht
      · cases ht
      · cases ht
        refine Lawful.runTask ?_ _
        exact hl

theorem Lawful.settle (hl : st.Lawful) (fuel : Nat) : (st.settle fuel).Lawful := by
  induction fuel generalizing st with
  | zero => exact hl
  | succ fuel ih =>
    unfold Stage.settle
    split
    · exact hl
    · next ht => exact ih (hl.tick ht)

theorem Lawful.advance (hl : st.Lawful) (fuel target n : Nat) :
    (st.advance fuel target n).Lawful := by
  induction n generalizing st with
  | zero => exact hl
  | succ n ih =>
    unfold Stage.advance
    split
    · refine Lawful.move ?_ _
      exact hl
    · refine ih (Lawful.settle (Lawful.move ?_ _) fuel)
      exact hl

theorem core_present (st : Stage) (logs : Logs) : (st.present logs).2.core = st.core := by
  refine core_foldl (fun _ _ => ?_) st _
  rfl

/-- What a step shows is taken from a stage that has come about by the rules. -/
theorem Lawful.runStep (hl : st.Lawful) (fuel : Nat) (logs : Logs) (s : Step) :
    ∃ st', Lawful st' ∧ st.runStep fuel logs s = st'.present logs := by
  cases s with
  | advance ms => exact ⟨_, hl.advance fuel _ fuel, rfl⟩
  | act a => exact ⟨_, ((hl.push .top).perform a).settle fuel, rfl⟩

theorem Lawful.runSteps (hl : st.Lawful) {fuel : Nat} {logs : Logs} {ss : List Step} {x : Shown}
    (hx : x ∈ runSteps fuel logs st ss) : ∃ st', Lawful st' ∧ x = (st'.present logs).1 := by
  induction ss generalizing st with
  | nil => cases hx
  | cons s ss ih =>
    obtain ⟨st', hl', hs⟩ := hl.runStep fuel logs s
    unfold Stage.runSteps at hx
    rw [hs] at hx
    rcases List.mem_cons.1 hx with rfl | hx
    · exact ⟨st', hl', rfl⟩
    · exact ih (hl'.of_core (core_present st' logs)) hx

/-- A script begins by the rules. -/
theorem lawful_ofScript {s : Script} (hs : ofScript? s = some st) : st.Lawful := by
  unfold ofScript? at hs
  dsimp only at hs
  split at hs
  · cases hs
    exact ⟨s.settings, .refl⟩
  · obtain ⟨bus, hb, hs⟩ := Option.bind_eq_some_iff.1 hs
    cases hs
    exact ⟨_, [], ⟨s.settings, _, bus, hb, rfl⟩, rfl⟩

end Stage

/-- Whatever a rehearsal shows, it shows of a stage that has come about by the rules, whose hub can be
reached. -/
theorem Script.shown_lawfully {s : Script} {shown : List Shown} (hs : s.rehearse? = some shown)
    {x : Shown} (hx : x ∈ shown) :
    ∃ st : Stage, st.Lawful ∧ st.hub.Reachable ∧ x = (st.present s.logs).1 := by
  obtain ⟨st, hst, hr⟩ := Option.bind_eq_some_iff.1 hs
  cases hr
  obtain ⟨st', hl, hx⟩ := (Stage.lawful_ofScript hst).runSteps hx
  exact ⟨st', hl, hl.reachable, hx⟩

end Aftermath.Rehearsal
