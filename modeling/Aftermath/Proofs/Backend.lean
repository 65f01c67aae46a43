import Aftermath.Proofs.Backend.Basic
import Aftermath.Proofs.Backend.Posts

/-! A connection that is told beforehand how to answer posts and what to do after the next
acknowledged one. However posts, their latencies, failures, reactions and breaks of the connection are
mixed, no command is posted twice or by a session that has given it up, failures are returned in order
by one post each, and each reaction follows the first post that is acknowledged after it was laid
out. -/

namespace Aftermath

namespace Loopback

theorem postReply_ne_suspended (q : Except PostError (List Reaction)) :
    postReply q ≠ .suspended := by
  cases q <;> nofun

end Loopback

namespace Backend

/-- A hub whose connection has a new bus, and nothing has happened yet. -/
def Fresh (x : Backend) : Prop :=
  ∃ (settings : Settings) (capacity : Nat) (bus : Bus Envelope), Bus.new? capacity = some bus ∧
    x = { loop := { hub := { settings }, memory := { bus } } }

structure Delivers (x : Backend) (os : List Occasion) (y : Backend) : Prop where
  posted : y.loop.memory.posted = (x.arrivals os).map Arrival.command
  once : ((x.arrivals os).map Arrival.session).Nodup
  /-- A post that is not through when it is made waits for as long as the latency says then. -/
  held : ∀ {before after z sid},
    os = before ++ .act (.move (.postReplied .suspended)) :: after → x.run? before = some z →
    z.loop.hub.posting? = some sid → y.mails.lookup sid =
      some ((z.mails.lookup sid).getD (z.loop.hub.clock + z.loop.memory.latency.getD 0))
  through : ∀ a ∈ x.arrivals os, ∀ moment, y.mails.lookup a.session = some moment →
    moment ≤ a.moment
  arrives : ∀ {sid}, y.loop.hub.posting? = some sid → ∀ command,
    (∃ z, y.occur? (.act (.receive command)) = some z) ↔ y.isThrough sid
  /-- The post of a session that is cancelled or given up meanwhile never arrives. -/
  abandoned : ∀ {before after z sid}, os = before ++ after → x.run? before = some z →
    (z.loop.hub.session sid).phase = .posting → z.loop.hub.isRunning sid = false →
    (z.loop.hub.session sid).cancelled ∨ after.head? = some (.act (.move (.drop sid))) →
    sid ∉ (x.arrivals os).map Arrival.session

structure Replies (x : Backend) (os : List Occasion) (y : Backend) : Prop where
  /-- Posts that arrive over a standing connection return the failures in order, one each. -/
  failures : os.flatMap Occasion.failures =
    (x.arrivals os).filterMap Arrival.failure? ++ y.loop.memory.failures
  serves : ∀ {before o after z z' a}, os = before ++ o :: after → x.run? before = some z →
    z.occur? o = some z' → z.arrived? o = some a →
    a.connected = z.loop.memory.connected ∧
    z.loop.memory.Serves a.command (a.reply, z'.loop.memory) ∧
    z.loop.hub.move? (.postReplied (Loopback.postReply a.reply)) = some z'.loop.hub

/-- What becomes of reactions in a run. The one laid out as number `n` becomes duty number `n`. -/
structure Reacts (x : Backend) (os : List Occasion) (y : Backend) : Prop where
  reactions : os.flatMap Occasion.reactions =
    (x.arrivals os).flatMap Arrival.taken ++ y.loop.memory.reactions
  duties : y.duties.map Duty.task = (x.arrivals os).flatMap Arrival.tasks
  /-- It follows the first post that is acknowledged after it was laid out. -/
  follows : ∀ {before r after z a}, os = before ++ .act (.arrange (.react r)) :: after →
    x.run? (before ++ [.act (.arrange (.react r))]) = some z →
    (z.arrivals after).find? Arrival.isAcknowledged = some a →
    (y.duties.map Duty.task)[(before.flatMap Occasion.reactions).length]? =
      some (a.moment + r.delay, r)
  waits : ∀ {before r after z}, os = before ++ .act (.arrange (.react r)) :: after →
    x.run? (before ++ [.act (.arrange (.react r))]) = some z →
    (z.arrivals after).find? Arrival.isAcknowledged = none →
    y.duties.length ≤ (before.flatMap Occasion.reactions).length
  once : (os.filterMap Occasion.duty?).Nodup
  done : ∀ {before n after z z'}, os = before ++ .due n :: after → x.run? before = some z →
    z.occur? (.due n) = some z' →
    ∃ r, (y.duties.map Duty.task)[n]? = some (z.loop.hub.clock, r) ∧
      z.loop.act? r.act = some z'.loop
  prompt : ∀ {n due r}, (y.duties.map Duty.task)[n]? = some (due, r) →
    due < y.loop.hub.clock → .due n ∈ os
  able : ∀ {n due r}, (y.duties.map Duty.task)[n]? = some (due, r) → .due n ∉ os →
    due = y.loop.hub.clock → y.loop.hub.isBusy = false → ∃ z, y.occur? (.due n) = some z

section
variable {x y z : Backend} {o : Occasion} {os ps : List Occasion} {as : List Arrival}
variable {sid : SessionId}

/-! ### Posts -/

theorem later_occurred (hx : x.loop.Linked) (ho : Occurred x o y) :
    Hub.Later x.loop.hub y.loop.hub := by
  obtain ⟨a, ha⟩ := ho.acted_loop
  exact Loopback.later_act hx ha

theorem posting_of_delayed {a : Act} {moment : Nat}
    (hl : (x.delayed a).lookup sid = some moment) : x.loop.hub.posting? = some sid := by
  unfold delayed at hl
  split at hl
  · split at hl
    · cases hl
    · next i hi =>
      split at hl
      · cases hl
      · rw [List.lookup_cons] at hl
        split at hl
        · next he => rw [hi, eq_of_beq he]
        · cases hl
  · cases hl

structure Came (x : Backend) (as : List Arrival) : Prop where
  once : (as.map Arrival.session).Nodup
  past : ∀ a ∈ as, (x.loop.hub.session a.session).phase.mayPost = false
  through : ∀ a ∈ as, ∀ moment, x.mails.lookup a.session = some moment → moment ≤ a.moment

theorem Came.nil : Came x [] := ⟨List.nodup_nil, nofun, nofun⟩

theorem Came.occurred (hx : x.loop.Linked) (hc : Came x as) (ho : Occurred x o y) :
    Came y (as ++ (x.arrived? o).toList) := by
  have hl := later_occurred hx ho
  have hpast : ∀ a ∈ as, (y.loop.hub.session a.session).phase.mayPost = false :=
    fun a ha => Hub.past_later hx.hub hl (hc.past a ha)
  -- The session whose post is on top is none of those whose posts have arrived.
  have fresh : ∀ {i}, x.loop.hub.posting? = some i → ∀ a ∈ as, a.session ≠ i := by
    rintro _ hi a ha rfl
    exact (hx.hub.posting hi).2 (.inl (hc.past a ha))
  cases ho with
  | @received sid command hub hp ht hm =>
    rw [arrived?_receive hp, Option.toList_some]
    refine ⟨?_, fun a hin => ?_, fun a hin moment hmail => ?_⟩
    · rw [List.map_append, List.nodup_append]
      refine ⟨hc.once, by simp, fun i hi j hj => ?_⟩
      obtain ⟨a, ha, rfl⟩ := List.mem_map.1 hi
      rw [List.map_singleton, List.mem_singleton] at hj
      rw [hj]
      exact fresh hp a ha
    · rcases List.mem_append.1 hin with hin | hin
      · exact hpast a hin
      · cases List.mem_singleton.1 hin
        exact Hub.past_of_answered hx.hub hp hm (Loopback.postReply_ne_suspended _)
    · rcases List.mem_append.1 hin with hin | hin
      · exact hc.through a hin moment hmail
      · cases List.mem_singleton.1 hin
        unfold isThrough at ht
        rw [show x.mails.lookup sid = some moment from hmail] at ht
        exact of_decide_eq_true ht
  | @acted a loop hn _ _ =>
    rw [arrived?_other hn, Option.toList_none, List.append_nil]
    refine ⟨hc.once, hpast, fun a ha moment hmail => ?_⟩
    rw [List.lookup_append] at hmail
    rcases Option.or_eq_some_iff.1 hmail with hmail | ⟨-, hmail⟩
    · exact hc.through a ha moment hmail
    · exact absurd rfl (fresh (posting_of_delayed hmail) a ha)
  | done => exact (List.append_nil as).symm ▸ ⟨hc.once, hpast, hc.through⟩

theorem Came.run (hx : x.loop.Linked) (hc : Came x as) (hrun : x.run? os = some y) :
    Came y (as ++ x.arrivals os) := by
  induction os generalizing x as with
  | nil =>
    cases hrun
    exact (List.append_nil as).symm ▸ hc
  | cons o os ih =>
    obtain ⟨z, hz, hrun⟩ := Option.bind_eq_some_iff.1 hrun
    have ho := occurred_of_occur? hz
    rw [arrivals_cons hz, ← List.append_assoc]
    exact ih (linked_occurred hx ho) (hc.occurred hx ho) hrun

theorem posting_of_arrived {a : Arrival} (ha : x.arrived? o = some a) :
    x.loop.hub.posting? = some a.session := by
  unfold arrived? at ha
  split at ha
  · obtain ⟨i, hi, rfl⟩ := Option.map_eq_some_iff.1 ha
    exact hi
  · cases ha

/-- No post arrives of a session that posts nothing any more. -/
theorem not_arriving (hx : x.loop.Linked) (hn : x.loop.hub.PostsNoMore sid)
    (hrun : x.run? os = some y) : sid ∉ (x.arrivals os).map Arrival.session := by
  induction os generalizing x with
  | nil => exact List.not_mem_nil
  | cons o os ih =>
    obtain ⟨z, hz, hrun⟩ := Option.bind_eq_some_iff.1 hrun
    have ho := occurred_of_occur? hz
    rw [arrivals_cons hz, List.map_append, List.mem_append]
    rintro (hin | hin)
    · obtain ⟨a, ha, rfl⟩ := List.mem_map.1 hin
      exact (hx.hub.posting (posting_of_arrived (Option.mem_toList.1 ha))).2 hn
    · exact ih (linked_occurred hx ho) (hn.later hx.hub (later_occurred hx ho)) hrun hin

theorem lookup_occurred (ho : Occurred x o y) {moment : Nat}
    (hl : x.mails.lookup sid = some moment) : y.mails.lookup sid = some moment := by
  cases ho with
  | received | done => exact hl
  | acted => rw [List.lookup_append, hl]; rfl

/-- How long a post is held up is settled once. -/
theorem lookup_run (hrun : x.run? os = some y) {moment : Nat}
    (hl : x.mails.lookup sid = some moment) : y.mails.lookup sid = some moment := by
  induction os generalizing x with
  | nil => cases hrun; exact hl
  | cons o os ih =>
    obtain ⟨z, hz, hrun⟩ := Option.bind_eq_some_iff.1 hrun
    exact ih hrun (lookup_occurred (occurred_of_occur? hz) hl)

/-- The rest of a run whose beginning is known. -/
theorem run?_rest (hrun : x.run? (os ++ ps) = some y) (hz : x.run? os = some z) :
    z.run? ps = some y := by
  rw [run?_append, hz] at hrun
  exact hrun

theorem not_abandoned_arrives {before after : List Occasion} (hx : x.loop.Linked)
    (hb : x.run? before = some z) (hrun : z.run? after = some y)
    (hp : (z.loop.hub.session sid).phase = .posting) (hi : z.loop.hub.isRunning sid = false)
    (hc : (z.loop.hub.session sid).cancelled ∨
      after.head? = some (.act (.move (.drop sid)))) :
    sid ∉ (x.arrivals (before ++ after)).map Arrival.session := by
  have hz := linked_run hx hb
  have hcame := Came.nil.run hx hb
  rw [arrivals_append hb, List.map_append, List.mem_append]
  rintro (hin | hin)
  · -- Before, it has not been past its post.
    obtain ⟨a, ha, rfl⟩ := List.mem_map.1 hin
    have hpast := hcame.past a ha
    rw [hp] at hpast
    cases hpast
  · rcases hc with hc | hdrop
    · refine not_arriving hz (.inr ⟨⟨hp, fun hd => ?_⟩, hc⟩) hrun hin
      exact Bool.false_ne_true (hi.symm.trans (Hub.isRunning_of_driving hd))
    · obtain ⟨rest, rfl⟩ := List.head?_eq_some_iff.1 hdrop
      obtain ⟨w, hw, hrun⟩ := Option.bind_eq_some_iff.1 hrun
      have ho := occurred_of_occur? hw
      rw [arrivals_cons hw] at hin
      refine not_arriving (linked_occurred hz ho) (.inl ?_) hrun hin
      cases ho with
      | acted _ _ ha =>
        cases ha with
        | move _ hm => exact Hub.past_of_dropped hp hm

/-! ### Reactions -/

theorem taken_of_refused {a : Arrival} (ha : a.isAcknowledged = false) : a.taken = [] := by
  unfold Arrival.isAcknowledged at ha
  unfold Arrival.taken
  cases hr : a.reply with
  | error e => rfl
  | ok reactions => rw [hr] at ha; cases ha

/-- An acknowledged post takes all reactions that lie there. -/
theorem taken_of_acknowledged {a : Arrival} (ha : x.arrived? o = some a) (hk : a.isAcknowledged) :
    a.taken = x.loop.memory.reactions := by
  unfold arrived? at ha
  split at ha
  · next command =>
    obtain ⟨i, -, rfl⟩ := Option.map_eq_some_iff.1 ha
    have hs := x.loop.memory.serves command
    unfold Arrival.isAcknowledged arrival at hk
    unfold Arrival.taken arrival
    dsimp only at hk ⊢
    generalize x.loop.memory.receivePost command = q at hs hk
    cases hs with
    | down _ | fails _ _ => cases hk
    | acknowledges _ _ => rfl
  · cases ha

/-- Without an acknowledged post nothing that is laid out goes. -/
theorem Occurred.unacknowledged (ho : Occurred x o y)
    (hn : (x.arrived? o).toList.find? Arrival.isAcknowledged = none) :
    y.duties.map Duty.task = x.duties.map Duty.task ∧
      y.loop.memory.reactions = x.loop.memory.reactions ++ o.reactions := by
  have hb := ho.balances
  have ht : ∀ a ∈ (x.arrived? o).toList, a.taken = [] := fun a ha =>
    taken_of_refused (Bool.eq_false_iff.2 (List.find?_eq_none.1 hn a ha))
  have hd : (x.arrived? o).toList.flatMap Arrival.tasks = [] :=
    List.flatMap_eq_nil_iff.2 fun a ha => by rw [Arrival.tasks, ht a ha]; rfl
  have hd' := hb.duties
  have hr := hb.reactions
  rw [hd, List.append_nil] at hd'
  rw [List.flatMap_eq_nil_iff.2 ht, List.nil_append] at hr
  exact ⟨hd', hr.symm⟩

/-- An acknowledged post makes a duty of each reaction that lies there. -/
theorem Occurred.acknowledged {a : Arrival} (ho : Occurred x o y) (ha : x.arrived? o = some a)
    (hk : a.isAcknowledged) : y.duties.map Duty.task =
      x.duties.map Duty.task ++ x.loop.memory.reactions.map fun r => (a.moment + r.delay, r) := by
  have hd := ho.balances.duties
  rw [ha, Option.toList_some, List.flatMap_singleton, Arrival.tasks,
    taken_of_acknowledged ha hk] at hd
  exact hd

/-- What lies there becomes a duty when the next post is acknowledged. -/
theorem duties_of_first {a : Arrival} (hrun : x.run? os = some y)
    (hf : (x.arrivals os).find? Arrival.isAcknowledged = some a) :
    x.duties.map Duty.task ++ x.loop.memory.reactions.map (fun r => (a.moment + r.delay, r)) <+:
      y.duties.map Duty.task := by
  induction os generalizing x with
  | nil => cases hf
  | cons o os ih =>
    obtain ⟨z, hz, hrun⟩ := Option.bind_eq_some_iff.1 hrun
    have ho := occurred_of_occur? hz
    rw [arrivals_cons hz, List.find?_append] at hf
    rcases Option.or_eq_some_iff.1 hf with hfirst | ⟨hnone, hf⟩
    · have ha := Option.mem_toList.1 (List.mem_of_find?_eq_some hfirst)
      rw [← ho.acknowledged ha (List.find?_some hfirst), (balances_run hrun).duties]
      exact List.prefix_append _ _
    · obtain ⟨hd, hr⟩ := ho.unacknowledged hnone
      refine List.IsPrefix.trans ?_ (ih hrun hf)
      rw [hd, hr, List.map_append, ← List.append_assoc]
      exact List.prefix_append _ _

/-- Without an acknowledged post no duty comes up. -/
theorem duties_of_none (hrun : x.run? os = some y)
    (hf : (x.arrivals os).find? Arrival.isAcknowledged = none) :
    y.duties.map Duty.task = x.duties.map Duty.task := by
  induction os generalizing x with
  | nil => cases hrun; rfl
  | cons o os ih =>
    obtain ⟨z, hz, hrun⟩ := Option.bind_eq_some_iff.1 hrun
    rw [arrivals_cons hz, List.find?_append, Option.or_eq_none_iff] at hf
    exact (ih hrun hf.2).trans ((occurred_of_occur? hz).unacknowledged hf.1).1

/-! ### Duties -/

/-- The duties that have been done so far are marked, and none of the others is overdue. -/
structure Marked (x : Backend) (ns : List Nat) : Prop where
  once : ns.Nodup
  done : ∀ n, n ∈ ns ↔ ∃ d, x.duties[n]? = some d ∧ d.done
  timely : ∀ d ∈ x.duties, d.done = false → x.loop.hub.clock ≤ d.due

theorem fresh_of_taken {a : Act} {d : Duty} (hd : d ∈ x.taken a) :
    d.done = false ∧ x.loop.hub.clock ≤ d.due := by
  unfold taken at hd
  split at hd
  · split at hd
    · cases hd
    · obtain ⟨r, -, rfl⟩ := List.mem_map.1 hd
      exact ⟨rfl, Nat.le_add_right _ _⟩
  · cases hd

/-- New duties are not done. -/
theorem Marked.taken {ns : List Nat} (hm : Marked x ns) {hub : Hub} {memory : Memory} {a : Act}
    (hclock : hub.clock = x.loop.hub.clock) :
    Marked { x with loop := ⟨hub, memory⟩, duties := x.duties ++ x.taken a } ns where
  once := hm.once
  done n := by
    rw [hm.done]
    constructor
    · rintro ⟨d, hd, hdone⟩
      have hlt := (List.getElem?_eq_some_iff.1 hd).1
      exact ⟨d, (List.getElem?_append_left hlt).trans hd, hdone⟩
    · rintro ⟨d, hd, hdone⟩
      rcases Nat.lt_or_ge n x.duties.length with hlt | hge
      · exact ⟨d, by rwa [List.getElem?_append_left hlt] at hd, hdone⟩
      · rw [List.getElem?_append_right hge] at hd
        have hnew := (fresh_of_taken (List.mem_of_getElem? hd)).1
        exact absurd (hnew.symm.trans hdone) Bool.false_ne_true
  timely d hd hn := by
    show hub.clock ≤ d.due
    rw [hclock]
    rcases List.mem_append.1 hd with hd | hd
    · exact hm.timely d hd hn
    · exact (fresh_of_taken hd).2

/-- Time passes no duty that is not done. -/
theorem Marked.acted {ns : List Nat} (hm : Marked x ns) {a : Act} {loop : Loopback}
    {mails : List (SessionId × Nat)} (hmay : x.mayAct a) (ha : Loopback.Acted x.loop a loop) :
    Marked { x with loop, mails } ns where
  once := hm.once
  done := hm.done
  timely d hd hn := by
    show loop.hub.clock ≤ d.due
    rcases Loopback.clock_act ha with hclock | hpass
    · rw [hclock]
      exact hm.timely d hd hn
    · rw [hpass] at hmay
      have hall := List.all_eq_true.1 hmay d hd
      rw [hn, Bool.false_or] at hall
      exact of_decide_eq_true hall

/-- A duty that is done is marked, and it was not before. -/
theorem Marked.marks {ns : List Nat} (hm : Marked x ns) {n : Nat} {d : Duty} {loop : Loopback}
    (hd : x.duties[n]? = some d) (hopen : d.done = false)
    (hclock : loop.hub.clock = x.loop.hub.clock) :
    Marked { x with loop, duties := x.duties.set n { d with done := true } } (ns ++ [n]) where
  once := by
    refine List.nodup_append.2 ⟨hm.once, by simp, fun i hi j hj => ?_⟩
    rw [List.mem_singleton.1 hj]
    rintro rfl
    obtain ⟨e, he, hdone⟩ := (hm.done i).1 hi
    cases hd.symm.trans he
    exact Bool.false_ne_true (hopen.symm.trans hdone)
  done k := by
    have hlt := (List.getElem?_eq_some_iff.1 hd).1
    rw [List.mem_append, hm.done, List.getElem?_set]
    by_cases hk : n = k
    · subst hk
      simp [hlt]
    · simp [hk, Ne.symm hk]
  timely e he hn := by
    show loop.hub.clock ≤ e.due
    rw [hclock]
    rcases List.mem_or_eq_of_mem_set he with he | rfl
    · exact hm.timely e he hn
    · cases hn

theorem Marked.occurred {ns : List Nat} (hm : Marked x ns) (ho : Occurred x o y) :
    Marked y (ns ++ o.duty?.toList) := by
  cases ho with
  | received _ _ hh =>
    rw [Occasion.duty?, Option.toList_none, List.append_nil]
    exact hm.taken ((Loopback.clock_act (.received hh)).resolve_right nofun)
  | acted _ hmay ha =>
    rw [Occasion.duty?, Option.toList_none, List.append_nil]
    exact hm.acted hmay ha
  | @done n d loop hd hopen _ ha =>
    exact hm.marks hd hopen ((Loopback.clock_act (Loopback.acted_of_act? ha)).resolve_right
      (by cases d.reaction <;> nofun))

theorem Marked.run {ns : List Nat} (hm : Marked x ns) (hrun : x.run? os = some y) :
    Marked y (ns ++ os.filterMap Occasion.duty?) := by
  induction os generalizing x ns with
  | nil =>
    cases hrun
    exact (List.append_nil ns).symm ▸ hm
  | cons o os ih =>
    obtain ⟨z, hz, hrun⟩ := Option.bind_eq_some_iff.1 hrun
    have hrest := ih (hm.occurred (occurred_of_occur? hz)) hrun
    rw [List.append_assoc] at hrest
    cases ho : o.duty? with
    | none => rwa [List.filterMap_cons_none ho, ← List.nil_append (os.filterMap _),
        ← Option.toList_none, ← ho]
    | some n => rwa [List.filterMap_cons_some ho, ← List.singleton_append, ← Option.toList_some,
        ← ho]

theorem mem_duties {n : Nat} : n ∈ os.filterMap Occasion.duty? ↔ .due n ∈ os := by
  rw [List.mem_filterMap]
  constructor
  · rintro ⟨o, ho, hn⟩
    cases o with
    | act a => cases hn
    | due k => cases hn; exact ho
  · exact fun ho => ⟨_, ho, rfl⟩

/-- A duty remains the same. -/
theorem task_run (hrun : x.run? os = some y) {n : Nat} {d : Duty} (hd : x.duties[n]? = some d) :
    (y.duties.map Duty.task)[n]? = some d.task := by
  have hlt := (List.getElem?_eq_some_iff.1 hd).1
  rw [(balances_run hrun).duties, List.getElem?_append_left (by simpa using hlt), List.getElem?_map,
    hd]
  rfl

/-- A duty that is done is due just then. -/
theorem done_when_due {ns : List Nat} (hm : Marked x ns) (hrun : x.run? os = some y) {n : Nat}
    (ho : x.occur? (.due n) = some z) :
    ∃ r, (y.duties.map Duty.task)[n]? = some (x.loop.hub.clock, r) ∧
      x.loop.act? r.act = some z.loop := by
  cases occurred_of_occur? ho with
  | @done _ d loop hd hn hdue ha =>
    have htimely := hm.timely d (List.mem_of_getElem? hd) hn
    refine ⟨d.reaction, ?_, ha⟩
    rw [task_run hrun hd, Nat.le_antisymm htimely hdue]
    rfl

/-! ### The whole -/

theorem Fresh.linked (hx : Fresh x) : x.loop.Linked := by
  obtain ⟨settings, capacity, bus, hb, rfl⟩ := hx
  exact Loopback.linked_init hb

theorem lookup_suspended (hp : x.loop.hub.posting? = some sid)
    (ho : x.occur? (.act (.move (.postReplied .suspended))) = some y) :
    y.mails.lookup sid =
      some ((x.mails.lookup sid).getD (x.loop.hub.clock + x.loop.memory.latency.getD 0)) := by
  cases occurred_of_occur? ho with
  | acted =>
    rw [List.lookup_append]
    unfold delayed
    rw [hp]
    dsimp only
    cases hl : x.mails.lookup sid with
    | some moment => rfl
    | none => simp

theorem arrives_iff (hp : x.loop.hub.posting? = some sid) (command : String) :
    (∃ y, x.occur? (.act (.receive command)) = some y) ↔ x.isThrough sid := by
  constructor
  · rintro ⟨y, ho⟩
    cases occurred_of_occur? ho with
    | received hp' ht _ =>
      cases hp.symm.trans hp'
      exact ht
    | acted hn _ _ => exact absurd rfl (hn _)
  · intro ht
    have hmay : x.mayAct (.receive command) := by
      unfold mayAct
      dsimp only
      rw [hp]
      exact ht
    unfold occur?
    dsimp only
    rw [if_pos hmay]
    unfold Loopback.act?
    rw [if_neg (by rw [Hub.not_busy_of_posting? hp]; exact Bool.false_ne_true)]
    dsimp only
    unfold Loopback.receive?
    dsimp only
    rw [Hub.move?_postReplied hp]
    exact ⟨_, rfl⟩

theorem delivers_run (hx : Fresh x) (hrun : x.run? os = some y) : Delivers x os y := by
  have hlx := hx.linked
  have hcame := Came.nil.run hlx hrun
  have hb := balances_run hrun
  refine ⟨?_, hcame.once, ?_, hcame.through, arrives_iff, ?_⟩
  · obtain ⟨settings, capacity, bus, -, rfl⟩ := hx
    exact hb.posted
  · rintro before after z sid rfl hz hp
    obtain ⟨v, hv, hrest⟩ := Option.bind_eq_some_iff.1 (run?_rest hrun hz)
    exact lookup_run hrest (lookup_suspended hp hv)
  · rintro before after z sid rfl hz hp hi hc
    exact not_abandoned_arrives hlx hz (run?_rest hrun hz) hp hi hc

theorem replies_run (hx : Fresh x) (hrun : x.run? os = some y) : Replies x os y := by
  have hb := balances_run hrun
  refine ⟨?_, ?_⟩
  · obtain ⟨settings, capacity, bus, -, rfl⟩ := hx
    exact hb.failures
  · intro before o after z z' a _ _ ho ha
    cases occurred_of_occur? ho with
    | @received sid command hub hp _ hm =>
      rw [arrived?_receive hp] at ha
      cases ha
      exact ⟨rfl, z.loop.memory.serves command, hm⟩
    | acted hn _ _ =>
      rw [arrived?_other hn] at ha
      cases ha
    | done => cases ha

theorem length_tasks (as : List Arrival) :
    (as.flatMap Arrival.tasks).length = (as.flatMap Arrival.taken).length := by
  simp [List.length_flatMap, Arrival.tasks]

/-- The reactions laid out so far are duties by now, or still lie there. -/
theorem Fresh.length_reactions (hx : Fresh x) (hrun : x.run? os = some y) :
    (os.flatMap Occasion.reactions).length = y.duties.length + y.loop.memory.reactions.length := by
  have hb := balances_run hrun
  have hd := congrArg List.length hb.duties
  have hr := congrArg List.length hb.reactions
  obtain ⟨settings, capacity, bus, -, rfl⟩ := hx
  simp only [List.length_map, List.length_append, List.map_nil, List.nil_append,
    length_tasks] at hd hr
  rw [hr, hd]

/-- A reaction that has just been laid out is the last one that lies there. -/
theorem Fresh.last_reaction (hx : Fresh x) {before : List Occasion} {r : Reaction}
    (hz : x.run? (before ++ [.act (.arrange (.react r))]) = some z) :
    ∃ l, z.loop.memory.reactions = l ++ [r] ∧
      (before.flatMap Occasion.reactions).length = z.duties.length + l.length := by
  rw [run?_append] at hz
  obtain ⟨w, hw, hlast⟩ := Option.bind_eq_some_iff.1 hz
  obtain ⟨v, hv, hlast⟩ := Option.bind_eq_some_iff.1 hlast
  cases hlast
  obtain ⟨hd, hr⟩ := (occurred_of_occur? hv).unacknowledged rfl
  have hlen := congrArg List.length hd
  simp only [List.length_map] at hlen
  exact ⟨w.loop.memory.reactions, hr, by rw [hx.length_reactions hw, hlen]⟩

theorem follows_first (hx : Fresh x) {before after : List Occasion} {r : Reaction} {a : Arrival}
    (hz : x.run? (before ++ [.act (.arrange (.react r))]) = some z) (hrun : z.run? after = some y)
    (hf : (z.arrivals after).find? Arrival.isAcknowledged = some a) :
    (y.duties.map Duty.task)[(before.flatMap Occasion.reactions).length]? =
      some (a.moment + r.delay, r) := by
  obtain ⟨l, hr, hn⟩ := hx.last_reaction hz
  have hpre := duties_of_first hrun hf
  rw [hr, List.map_append, ← List.append_assoc] at hpre
  obtain ⟨rest, he⟩ := hpre
  rw [← he, hn, List.append_assoc]
  have hlen : z.duties.length + l.length =
      (z.duties.map Duty.task ++ l.map fun r => (a.moment + r.delay, r)).length := by simp
  rw [hlen]
  simp

theorem waits_unacknowledged (hx : Fresh x) {before after : List Occasion} {r : Reaction}
    (hz : x.run? (before ++ [.act (.arrange (.react r))]) = some z) (hrun : z.run? after = some y)
    (hf : (z.arrivals after).find? Arrival.isAcknowledged = none) :
    y.duties.length ≤ (before.flatMap Occasion.reactions).length := by
  obtain ⟨l, -, hn⟩ := hx.last_reaction hz
  have hlen := congrArg List.length (duties_of_none hrun hf)
  simp only [List.length_map] at hlen
  rw [hlen, hn]
  exact Nat.le_add_right _ _

theorem Marked.of_fresh (hx : Fresh x) : Marked x [] := by
  obtain ⟨settings, capacity, bus, -, rfl⟩ := hx
  refine ⟨List.nodup_nil, fun n => ⟨fun hn => absurd hn List.not_mem_nil, ?_⟩, nofun⟩
  rintro ⟨d, hd, -⟩
  cases hd

theorem Marked.duty {ns : List Nat} (hm : Marked x ns) {n due : Nat} {r : Reaction}
    (ht : (x.duties.map Duty.task)[n]? = some (due, r)) :
    ∃ d, x.duties[n]? = some d ∧ d.due = due ∧ d.reaction = r ∧
      (n ∉ ns → d.done = false ∧ x.loop.hub.clock ≤ due) := by
  rw [List.getElem?_map] at ht
  obtain ⟨d, hd, he⟩ := Option.map_eq_some_iff.1 ht
  cases he
  refine ⟨d, hd, rfl, rfl, fun hn => ?_⟩
  have hdone : d.done = false := Bool.eq_false_iff.2 fun hdone => hn ((hm.done n).2 ⟨d, hd, hdone⟩)
  exact ⟨hdone, hm.timely d (List.mem_of_getElem? hd) hdone⟩

/-- A duty that is due can be done. -/
theorem occur?_due {n : Nat} {d : Duty} (hb : x.loop.hub.isBusy = false)
    (hd : x.duties[n]? = some d) (hn : d.done = false) (hdue : d.due ≤ x.loop.hub.clock) :
    ∃ y, x.occur? (.due n) = some y := by
  have ha : ∃ loop, x.loop.act? d.reaction.act = some loop := by
    unfold Loopback.act?
    rw [if_neg (by rw [hb]; exact Bool.false_ne_true)]
    cases d.reaction <;> exact ⟨_, rfl⟩
  obtain ⟨loop, ha⟩ := ha
  unfold occur?
  dsimp only
  rw [hd]
  dsimp only
  rw [if_pos (by rw [hn]; simpa using hdue), ha]
  exact ⟨_, rfl⟩

theorem reacts_run (hx : Fresh x) (hrun : x.run? os = some y) : Reacts x os y := by
  have hb := balances_run hrun
  have hm := (Marked.of_fresh hx).run hrun
  rw [List.nil_append] at hm
  refine { reactions := ?_, duties := ?_, follows := ?_, waits := ?_, once := hm.once, done := ?_,
           prompt := ?_, able := ?_ }
  · obtain ⟨settings, capacity, bus, -, rfl⟩ := hx
    exact hb.reactions
  · obtain ⟨settings, capacity, bus, -, rfl⟩ := hx
    exact hb.duties
  · rintro before r after z a rfl hz hf
    rw [← List.singleton_append, ← List.append_assoc] at hrun
    exact follows_first hx hz (run?_rest hrun hz) hf
  · rintro before r after z rfl hz hf
    rw [← List.singleton_append, ← List.append_assoc] at hrun
    exact waits_unacknowledged hx hz (run?_rest hrun hz) hf
  · rintro before n after z z' rfl hz hz'
    exact done_when_due ((Marked.of_fresh hx).run hz) (run?_rest hrun hz) hz'
  · intro n due r ht hlt
    obtain ⟨d, -, -, -, hopen⟩ := hm.duty ht
    rw [← mem_duties]
    apply Classical.byContradiction
    intro hn
    exact absurd (hopen hn).2 (Nat.not_le_of_lt hlt)
  · intro n due r ht hn hclock hbusy
    obtain ⟨d, hd, rfl, -, hopen⟩ := hm.duty ht
    exact occur?_due hbusy hd (hopen fun hin => hn (mem_duties.1 hin)).1 (Nat.le_of_eq hclock)

/-- Posts, failures and reactions are neither lost nor doubled. -/
theorem scripts_lose_nothing (hx : Fresh x) (hrun : x.run? os = some y) :
    Delivers x os y ∧ Replies x os y ∧ Reacts x os y :=
  ⟨delivers_run hx hrun, replies_run hx hrun, reacts_run hx hrun⟩

end

def beginsPost (sid : SessionId) : List Occasion :=
  ([.openSession none none, .run sid, .step, .configured, .step, .step, .step,
    .postReplied .suspended] : List Move).map fun m => .act (.move m)

def resumesPost (sid : SessionId) (command : String) (n : Nat) : List Occasion :=
  [.act (.move (.run sid)), .act (.move .step), .act (.move .step), .act (.receive command)] ++
    List.replicate n (.act (.move .step))

/-- Of three posts one fails, one is acknowledged and makes the connection break, and one is
abandoned. -/
def threePosts : List Occasion :=
  [.act (.arrange (.failPost (.network ⟨""⟩))), .act (.arrange (.react (.disconnect 5 ⟨""⟩))),
    .act (.arrange (.delayPosts 10))] ++
    beginsPost 0 ++ beginsPost 1 ++ beginsPost 2 ++
    [.act (.move (.cancelAll 2)), .act (.move .step), .act (.move (.pass 10))] ++
    resumesPost 0 "first" 4 ++ resumesPost 1 "second" 3 ++ [.act (.move (.run 2))] ++
    List.replicate 5 (.act (.move .step)) ++ [.act (.move (.pass 15)), .due 0, .act .reconnect]

theorem three_posts_take_turns : ∃ x y, Fresh x ∧ x.run? threePosts = some y ∧
    y.loop.memory.posted = ["first", "second"] ∧
    y.duties = [{ due := 15, reaction := .disconnect 5 ⟨""⟩, done := true }] ∧
    Delivers x threePosts y ∧ Replies x threePosts y ∧ Reacts x threePosts y := by
  have hx : Fresh { loop := { hub := {}, memory := { bus := { capacity := 1 } } } } :=
    ⟨{}, 1, _, Bus.new?_one, rfl⟩
  obtain ⟨y, hrun, hp⟩ := Hub.exists_of_any
    (show (run? { loop := { hub := {}, memory := { bus := { capacity := 1 } } } } threePosts).any
      (fun y => y.loop.memory.posted = ["first", "second"] ∧
        y.duties = [{ due := 15, reaction := .disconnect 5 ⟨""⟩, done := true }]) by decide)
  obtain ⟨hposted, hduties⟩ := of_decide_eq_true hp
  exact ⟨_, y, hx, hrun, hposted, hduties, scripts_lose_nothing hx hrun⟩

end Backend
end Aftermath
