import Aftermath.Backend
import Aftermath.Proofs.Latest
import Aftermath.Proofs.Loopback

/-! Runs of a hub whose connection reacts, and the books of its server. What has arrived there has
been posted; what was laid out has been handed out to posts that arrived, or still lies there. -/

namespace Aftermath

/-! ### What is laid out -/

def Act.failures : Act → List PostError
  | .arrange (.failPost e) => [e]
  | _ => []

def Act.reactions : Act → List Reaction
  | .arrange (.react r) => [r]
  | _ => []

namespace Occasion

def failures : Occasion → List PostError
  | .act a => a.failures
  | .due _ => []

def reactions : Occasion → List Reaction
  | .act a => a.reactions
  | .due _ => []

def duty? : Occasion → Option Nat
  | .act _ => none
  | .due n => some n

end Occasion

/-! ### What arrives -/

structure Arrival where
  session : SessionId
  command : String
  moment : Nat
  connected : Bool
  reply : Except PostError (List Reaction)

namespace Arrival

def isAcknowledged (a : Arrival) : Bool := a.reply.isOk

def failure? (a : Arrival) : Option PostError :=
  match a.connected, a.reply with
  | true, .error e => some e
  | _, _ => none

def taken (a : Arrival) : List Reaction :=
  match a.reply with
  | .error _ => []
  | .ok reactions => reactions

/-- They are due some time after the acknowledgement. -/
def tasks (a : Arrival) : List (Nat × Reaction) := a.taken.map fun r => (a.moment + r.delay, r)

end Arrival

def Duty.task (d : Duty) : Nat × Reaction := (d.due, d.reaction)

namespace Memory

def script (m : Memory) : List String × List PostError × List Reaction :=
  (m.posted, m.failures, m.reactions)

/-- What the server does with a post that arrives. -/
inductive Serves (m : Memory) (command : String) :
    Except PostError (List Reaction) × Memory → Prop where
  | down : m.connected = false →
      Serves m command (.error (.network down), { m with posted := m.posted ++ [command] })
  | fails {e es} : m.connected → m.failures = e :: es →
      Serves m command (.error e, { m with posted := m.posted ++ [command], failures := es })
  | acknowledges : m.connected → m.failures = [] →
      Serves m command (.ok m.reactions, { m with posted := m.posted ++ [command], reactions := [] })

theorem serves (m : Memory) (command : String) : Serves m command (m.receivePost command) := by
  unfold receivePost
  dsimp only
  split
  · next hc =>
    split
    · next e es hf => exact .fails hc hf
    · next hf => exact .acknowledges hc hf
  · next hc => exact .down (Bool.eq_false_iff.2 hc)

/-- What a post takes from what is laid out. -/
theorem Serves.books {m : Memory} {command : String}
    {q : Except PostError (List Reaction) × Memory} (hs : Serves m command q) {a : Arrival}
    (hc : a.connected = m.connected) (hr : a.reply = q.1) :
    q.2.posted = m.posted ++ [command] ∧ m.failures = a.failure?.toList ++ q.2.failures ∧
      m.reactions = a.taken ++ q.2.reactions := by
  unfold Arrival.failure? Arrival.taken
  rw [hc, hr]
  cases hs with
  | down hc => rw [hc]; exact ⟨rfl, rfl, rfl⟩
  | fails hc hf => rw [hc, hf]; exact ⟨rfl, rfl, rfl⟩
  | acknowledges hc hf => rw [hc, hf]; exact ⟨rfl, rfl, (List.append_nil _).symm⟩

theorem script_retire (m : Memory) (l : LeaseId) : (m.retire l).script = m.script := by
  unfold retire
  split <;> rfl

theorem script_listen (m : Memory) (l : LeaseId) : (m.listen l).2.script = m.script := by
  unfold listen
  split
  · rfl
  · split
    · rfl
    · split
      · exact script_retire m l
      · dsimp only
        split
        · rfl
        · exact script_retire _ l

end Memory

namespace Loopback

section
variable {x y : Loopback} {a : Act}

/-- Time passes only by an act of its own. -/
theorem clock_act (ha : Acted x a y) :
    y.hub.clock = x.hub.clock ∨ a = .move (.pass y.hub.clock) := by
  have other : ∀ {m h}, x.hub.move? m = some h → (∀ t, m ≠ .pass t) → h.clock = x.hub.clock :=
    fun hm hn => (Hub.clock_move (Hub.moved_of_move? hm)).resolve_right (hn _)
  cases ha with
  | move _ hm =>
    exact (Hub.clock_move (Hub.moved_of_move? hm)).imp id fun he => congrArg Act.move he
  | granted _ _ hm | declined _ _ hm | unsubscribed _ hm | received hm | hears _ _ hm
  | closed _ _ hm => exact .inl (other hm nofun)
  | unheard _ _ | published | reconnected | arranged => exact .inl rfl
  | @disconnected e _ =>
    have hg : ∀ (l : List SubId) (h : Hub), (h.failAll e l).2.given = h.given := by
      intro l
      induction l with
      | nil => exact fun _ => rfl
      | cons s l ih => exact fun h => (ih (h.fail s e)).trans (Hub.given_fail (h := h) (s := s) e)
    exact .inl (congrArg Hub.Given.clock (hg x.memory.live x.hub))

/-- Only a post that arrives takes away from what is laid out. -/
theorem script_act (ha : Acted x a y) (hn : ∀ c, a ≠ .receive c) :
    y.memory.script = (x.memory.posted, x.memory.failures ++ a.failures,
      x.memory.reactions ++ a.reactions) := by
  have same : y.memory.script = x.memory.script → a.failures = [] → a.reactions = [] →
      y.memory.script = (x.memory.posted, x.memory.failures ++ a.failures,
        x.memory.reactions ++ a.reactions) := by
    intro hs hf hr
    rw [hs, hf, hr, List.append_nil, List.append_nil]
    rfl
  cases ha with
  | move _ _ | declined _ _ _ | unsubscribed _ _ | published | disconnected _ | reconnected =>
    exact same rfl rfl rfl
  | granted _ hm _ => exact same (by rw [(subscribe_eq hm).2]; rfl) rfl rfl
  | received _ => exact absurd rfl (hn _)
  | unheard _ _ | hears _ _ _ | closed _ _ _ => exact same (Memory.script_listen _ _) rfl rfl
  | @arranged b =>
    cases b with
    | failPost e => simp [Memory.script, Memory.arrange, Act.failures, Act.reactions]
    | react r => simp [Memory.script, Memory.arrange, Act.failures, Act.reactions]
    | refuse _ _ | delayPosts _ => exact same rfl rfl rfl

end
end Loopback

namespace Backend

def arrival (x : Backend) (session : SessionId) (command : String) : Arrival :=
  { session, command
    moment := x.loop.hub.clock
    connected := x.loop.memory.connected
    reply := (x.loop.memory.receivePost command).1 }

def arrived? (x : Backend) : Occasion → Option Arrival
  | .act (.receive command) => x.loop.hub.posting?.map (x.arrival · command)
  | _ => none

def arrivals (x : Backend) : List Occasion → List Arrival
  | [] => []
  | o :: os =>
    match x.occur? o with
    | none => []
    | some y => (x.arrived? o).toList ++ y.arrivals os

def run? (x : Backend) : List Occasion → Option Backend
  | [] => some x
  | o :: os => (x.occur? o).bind (·.run? os)

inductive Occurred (x : Backend) : Occasion → Backend → Prop where
  | received {sid command hub} : x.loop.hub.posting? = some sid → x.isThrough sid →
      x.loop.hub.move? (.postReplied (Loopback.postReply (x.loop.memory.receivePost command).1)) =
        some hub →
      Occurred x (.act (.receive command))
        { loop := ⟨hub, (x.loop.memory.receivePost command).2⟩, mails := x.mails
          duties := x.duties ++ x.taken (.receive command) }
  | acted {a loop} : (∀ command, a ≠ .receive command) → x.mayAct a → Loopback.Acted x.loop a loop →
      Occurred x (.act a) { loop, mails := x.mails ++ x.delayed a, duties := x.duties }
  | done {n d loop} : x.duties[n]? = some d → d.done = false → d.due ≤ x.loop.hub.clock →
      x.loop.act? d.reaction.act = some loop →
      Occurred x (.due n) { x with loop, duties := x.duties.set n { d with done := true } }

section
variable {x y z : Backend} {o : Occasion} {os ps : List Occasion} {a : Act} {sid : SessionId}

theorem posting_of_postReplied {h h' : Hub} {r : Hub.PostReply}
    (hm : h.move? (.postReplied r) = some h') : ∃ sid, h.posting? = some sid := by
  cases Hub.moved_of_move? hm with
  | @postReplied sid _ _ hst => exact ⟨sid, by unfold Hub.posting?; rw [hst]⟩

theorem taken_of_not_receive (hn : ∀ command, a ≠ .receive command) : x.taken a = [] := by
  unfold taken
  split
  · exact absurd rfl (hn _)
  · rfl

theorem arrived?_receive (hp : x.loop.hub.posting? = some sid) (command : String) :
    x.arrived? (.act (.receive command)) = some (x.arrival sid command) := by
  unfold arrived?
  rw [hp]
  rfl

theorem arrived?_other (hn : ∀ command, a ≠ .receive command) : x.arrived? (.act a) = none := by
  unfold arrived?
  split
  · next he => cases he; exact absurd rfl (hn _)
  · rfl

theorem occurred_of_occur? (ho : x.occur? o = some y) : Occurred x o y := by
  unfold occur? at ho
  split at ho
  · next a =>
    obtain ⟨hmay, ho⟩ := Option.ite_none_right_eq_some.1 ho
    obtain ⟨loop, ha, rfl⟩ := Option.map_eq_some_iff.1 ho
    have ha := Loopback.acted_of_act? ha
    by_cases hr : ∃ command, a = .receive command
    · obtain ⟨command, rfl⟩ := hr
      cases ha with
      | received hm =>
        obtain ⟨sid, hp⟩ := posting_of_postReplied hm
        unfold mayAct at hmay
        dsimp only at hmay
        rw [hp] at hmay
        rw [show x.mails ++ x.delayed (.receive command) = x.mails from List.append_nil _]
        exact .received hp hmay hm
    · have hn : ∀ command, a ≠ .receive command := fun command he => hr ⟨command, he⟩
      rw [taken_of_not_receive hn, List.append_nil]
      exact .acted hn hmay ha
  · next n =>
    split at ho
    · cases ho
    · next d hd =>
      obtain ⟨hmay, ho⟩ := Option.ite_none_right_eq_some.1 ho
      obtain ⟨loop, ha, rfl⟩ := Option.map_eq_some_iff.1 ho
      simp only [Bool.and_eq_true, Bool.not_eq_true', decide_eq_true_eq] at hmay
      exact .done hd hmay.1 hmay.2 ha

/-! ### Runs -/

theorem run?_append (x : Backend) (os ps : List Occasion) :
    x.run? (os ++ ps) = (x.run? os).bind (·.run? ps) := by
  induction os generalizing x with
  | nil => rfl
  | cons o os ih =>
    rw [List.cons_append, run?, run?, Option.bind_assoc]
    congr 1
    funext a
    exact ih a

theorem arrivals_cons (ho : x.occur? o = some y) (os : List Occasion) :
    x.arrivals (o :: os) = (x.arrived? o).toList ++ y.arrivals os := by
  rw [arrivals, ho]

theorem arrivals_append (hrun : x.run? os = some y) (ps : List Occasion) :
    x.arrivals (os ++ ps) = x.arrivals os ++ y.arrivals ps := by
  induction os generalizing x with
  | nil => cases hrun; rfl
  | cons o os ih =>
    obtain ⟨z, hz, hrun⟩ := Option.bind_eq_some_iff.1 hrun
    rw [List.cons_append, arrivals_cons hz, arrivals_cons hz, ih hrun, List.append_assoc]

/-- Whatever happens is an act of the hub and its connection. -/
theorem Occurred.acted_loop (ho : Occurred x o y) : ∃ a, Loopback.Acted x.loop a y.loop := by
  cases ho with
  | received _ _ hm => exact ⟨_, .received hm⟩
  | acted _ _ ha => exact ⟨_, ha⟩
  | done _ _ _ ha => exact ⟨_, Loopback.acted_of_act? ha⟩

theorem linked_occurred (hx : x.loop.Linked) (ho : Occurred x o y) : y.loop.Linked := by
  obtain ⟨a, ha⟩ := ho.acted_loop
  exact hx.act ha

theorem linked_run (hx : x.loop.Linked) (hrun : x.run? os = some y) : y.loop.Linked := by
  induction os generalizing x with
  | nil => cases hrun; exact hx
  | cons o os ih =>
    obtain ⟨z, hz, hrun⟩ := Option.bind_eq_some_iff.1 hrun
    exact ih (linked_occurred hx (occurred_of_occur? hz)) hrun

/-! ### The books -/

/-- The books of the server: what it has, so many posts later and so much more laid out. -/
structure Balances (x : Backend) (as : List Arrival) (fs : List PostError) (rs : List Reaction)
    (y : Backend) : Prop where
  posted : y.loop.memory.posted = x.loop.memory.posted ++ as.map Arrival.command
  failures : x.loop.memory.failures ++ fs = as.filterMap Arrival.failure? ++ y.loop.memory.failures
  reactions : x.loop.memory.reactions ++ rs = as.flatMap Arrival.taken ++ y.loop.memory.reactions
  duties : y.duties.map Duty.task = x.duties.map Duty.task ++ as.flatMap Arrival.tasks

theorem Balances.refl (x : Backend) : Balances x [] [] [] x :=
  ⟨by simp, by simp, by simp, by simp⟩

theorem Balances.trans {as bs : List Arrival} {fs gs : List PostError} {rs ss : List Reaction}
    (hx : Balances x as fs rs y) (hy : Balances y bs gs ss z) :
    Balances x (as ++ bs) (fs ++ gs) (rs ++ ss) z where
  posted := by rw [hy.posted, hx.posted, List.map_append, List.append_assoc]
  failures := by
    rw [← List.append_assoc, hx.failures, List.append_assoc, hy.failures, List.filterMap_append,
      List.append_assoc]
  reactions := by
    rw [← List.append_assoc, hx.reactions, List.append_assoc, hy.reactions, List.flatMap_append,
      List.append_assoc]
  duties := by rw [hy.duties, hx.duties, List.flatMap_append, List.append_assoc]

/-- What is done is still the same duty. -/
theorem tasks_set {l : List Duty} {n : Nat} {d : Duty} (hd : l[n]? = some d) (b : Bool) :
    (l.set n { d with done := b }).map Duty.task = l.map Duty.task := by
  refine List.ext_getElem? fun k => ?_
  rw [List.getElem?_map, List.getElem?_map, List.getElem?_set]
  split
  · next he =>
    subst he
    rw [if_pos (List.getElem?_eq_some_iff.1 hd).1, hd]
    rfl
  · rfl

/-- A post that arrives brings the duties of its reactions. -/
theorem tasks_taken (sid : SessionId) (command : String) :
    (x.taken (.receive command)).map Duty.task = (x.arrival sid command).tasks := by
  unfold taken Arrival.tasks Arrival.taken arrival
  dsimp only
  cases (x.loop.memory.receivePost command).1 with
  | error e => rfl
  | ok reactions => exact List.map_map

/-- An act that is no arrival leaves all the books alone, but for what it lays out. -/
theorem Balances.of_script {fs : List PostError} {rs : List Reaction}
    (hs : y.loop.memory.script = (x.loop.memory.posted, x.loop.memory.failures ++ fs,
      x.loop.memory.reactions ++ rs))
    (hd : y.duties.map Duty.task = x.duties.map Duty.task) : Balances x [] fs rs y where
  posted := by rw [show y.loop.memory.posted = _ from congrArg Prod.fst hs]; simp
  failures := by rw [show y.loop.memory.failures = _ from congrArg (·.2.1) hs]; rfl
  reactions := by rw [show y.loop.memory.reactions = _ from congrArg (·.2.2) hs]; rfl
  duties := by rw [hd]; simp

theorem Occurred.balances (ho : Occurred x o y) :
    Balances x (x.arrived? o).toList o.failures o.reactions y := by
  cases ho with
  | @received sid command hub hp _ _ =>
    obtain ⟨hposted, hfailures, hreactions⟩ :=
      (x.loop.memory.serves command).books (a := x.arrival sid command) rfl rfl
    rw [arrived?_receive hp]
    exact {
      posted := hposted
      failures := by
        rw [show Occasion.failures _ = [] from rfl, List.append_nil, hfailures]
        cases hf : (x.arrival sid command).failure? <;> simp [hf]
      reactions := by
        rw [show Occasion.reactions _ = [] from rfl, List.append_nil, hreactions]
        simp
      duties := by rw [List.map_append, tasks_taken sid]; simp }
  | @acted a loop hn _ ha =>
    rw [arrived?_other hn]
    exact .of_script (Loopback.script_act ha hn) rfl
  | @done n d loop hd _ _ ha =>
    have ha := Loopback.acted_of_act? ha
    have hs := Loopback.script_act ha (by cases d.reaction <;> nofun)
    refine .of_script (hs.trans ?_) (tasks_set hd true)
    cases d.reaction <;> rfl

/-- The books after a run. -/
theorem balances_run (hrun : x.run? os = some y) :
    Balances x (x.arrivals os) (os.flatMap Occasion.failures) (os.flatMap Occasion.reactions)
      y := by
  induction os generalizing x with
  | nil => cases hrun; exact .refl _
  | cons o os ih =>
    obtain ⟨z, hz, hrun⟩ := Option.bind_eq_some_iff.1 hrun
    rw [arrivals_cons hz, List.flatMap_cons, List.flatMap_cons]
    exact (occurred_of_occur? hz).balances.trans (ih hrun)

end
end Backend
end Aftermath
