import Aftermath.Proofs.Disconnect
import Aftermath.Proofs.Listener
import Aftermath.Proofs.Release
import Aftermath.Proofs.Tidy
import Aftermath.Proofs.Turn.Origin

/-! What a connection holds on to. Its entries are the active subscriptions that it has granted, each
under its own lease, except for those whose lease is on its way back. A listener touches no entry
but its own, and when all sessions are past there is none. -/

namespace Aftermath

/-- The subscription that the connection has an entry for under a lease. -/
def Memory.listed? (m : Memory) (l : LeaseId) : Option SubId :=
  (m.listeners[l]?).bind fun r => if r.live then some r.sub else none

namespace Hub

def NoneReturning (h : Hub) : Prop := ∀ l, .unsubscribing l ∉ h.stack

/-- A session has come to its end, or has been given up while it was under way or before anything
happened. -/
inductive Past (h : Hub) (i : SessionId) : Prop where
  | ended {e} : (h.session i).phase = .ended e → Past h i
  | dropped {a} : Reachable a → (a.session i).isUnderWay → Later a h →
      (h.session i).phase = .dropped → Past h i
  | forgone : (h.session i).phase = .forgone → Past h i

/-- A session was given up between its configuration and its first run. It only vanishes: nobody
cancels its subscriptions. -/
def Unrun (h : Hub) (i : SessionId) : Prop :=
  ∃ a b m, Reachable a ∧ (a.session i).phase = .prepared ∧ a.move? m = some b ∧
    (b.session i).phase = .dropped ∧ Later b h

section
variable {h : Hub} {s : SubId} {l : LeaseId} {i : SessionId} {e : Ending}

/-! ### Leases -/

theorem noneReturning_of_idle (hst : h.stack = []) : h.NoneReturning := by
  intro l hl
  rw [hst] at hl
  cases hl

/-- The transport grants a subscription one lease at most. -/
theorem Reachable.granted_eq (hr : Reachable h) (hl : l ∈ h.granted s) : h.granted s = [l] := by
  have ho := (released_of_tidy (hr.allTidy s)).once
  match hg : h.granted s with
  | [] => rw [hg] at hl; cases hl
  | [k] => rw [hg] at hl; rw [List.mem_singleton.1 hl]
  | _ :: _ :: _ => rw [hg] at ho; simp at ho

/-! ### Sessions that are past -/

/-- A session that has ended has nothing active. -/
theorem Reachable.spent_of_ended (hr : Reachable h) (hp : (h.session i).phase = .ended e) :
    Spent h i := by
  induction hr using Reachable.induct with
  | init settings => cases hp
  | move a b m ha hm ih =>
    have hm := moved_of_move? hm
    have ht := move_turn ha.wired hm i
    rcases ht.ended_cases hp with hx | hx
    · exact (ih hx).move ha hm (by rw [show (a.session i).phase = _ from hx]; nofun)
    · have hc : (a.session i).phase.isClosing := by rw [show (a.session i).phase = _ from hx]; rfl
      rcases ht.of_closing (ha.fits i) hc with ⟨hsame, -⟩ | ⟨-, hth⟩
      · cases hp.symm.trans (hsame.trans hx)
      · exact ((ha.sweeping hc).spent ha hm hth).move ha hm
          (Phase.not_configuring_of_begun (Phase.isBegun_of_closing hc))

/-- A session that was given up before anything happened has no subscriptions. -/
theorem Reachable.not_own_of_forgone (hr : Reachable h) (hp : (h.session i).phase = .forgone)
    (hs : s < h.subs.length) : (h.sub s).home ≠ i := by
  induction hr using Reachable.induct with
  | init settings => cases hp
  | move a b m ha hm ih =>
    have hm := moved_of_move? hm
    intro hh
    have hx := (move_turn ha.wired hm i).forgone_cases hp
    have hne : (a.session i).phase ≠ .configuring := by
      intro hq
      rcases hx with hx | hx <;> cases hx.symm.trans hq
    obtain ⟨hlt, hh⟩ := own_move ha hm hne hs hh
    rcases hx with hx | hx
    · exact ih hx hlt hh
    · exact not_mem_of_unopened ha (ha.judged i) hx hlt hh

theorem Past.inactive (hp : Past h (h.sub s).home) (hr : Reachable h) (hs : s < h.subs.length) :
    (h.sub s).isActive = false := by
  have hown := hr.wired.own s hs
  cases hp with
  | ended hp => exact (hr.spent_of_ended hp).inactive s hown
  | dropped ha hu hl hp =>
    exact (((outlived_of_underWay hu).later ha hl).spent (by rw [hp]; rfl)).inactive s hown
  | forgone hp => exact absurd rfl (hr.not_own_of_forgone hp hs)

/-- A session that is being given up was under way. -/
theorem Reachable.underWay_of_dropping (hr : Reachable h) (hp : (h.session i).phase = .dropping) :
    h.Once fun a => (a.session i).isUnderWay :=
  hr.once (q := .dropping) nofun (fun _ ht => ht.dropping_cases) hp

theorem Reachable.dropped_cases (hr : Reachable h) (hp : (h.session i).phase = .dropped) :
    (h.Once fun a => (a.session i).isUnderWay) ∨ Unrun h i := by
  induction hr using Reachable.induct with
  | init settings => cases hp
  | move a b m ha hm ih =>
    have hl := Later.refl.move hm
    rcases (move_turn ha.wired (moved_of_move? hm) i).dropped_cases (ha.fits i) hp with hx | hx | hx
    · refine (ih hx).imp (·.later hl) fun hu => ?_
      obtain ⟨c, d, n, hc, hq, hn, hd, hdl⟩ := hu
      exact ⟨c, d, n, hc, hq, hn, hd, hdl.trans hl⟩
    · exact .inl ((ha.underWay_of_dropping hx).later hl)
    · exact .inr ⟨a, b, m, ha, hx, hm, hp, .refl⟩

/-- A session that is over is past, unless it was given up between its configuration and its first
run. -/
theorem Reachable.past_or_unrun (hr : Reachable h) (ho : (h.session i).isOver) :
    Past h i ∨ Unrun h i := by
  unfold Session.isOver at ho
  split at ho
  · next hp => exact .inl (.ended hp)
  · next hp =>
    rcases hr.dropped_cases hp with ⟨a, ha, hu, hl⟩ | hn
    · exact .inl (.dropped ha hu hl hp)
    · exact .inr hn
  · next hp => exact .inl (.forgone hp)
  · cases ho

end
end Hub

namespace Loopback

/-- What the connection lists is active, and what is active and was granted is listed. -/
structure Lists (x : Loopback) : Prop where
  entry : ∀ l s, x.memory.listed? l = some s ↔
    (x.hub.sub s).isActive ∧ x.hub.granted s = [l]
  count : x.memory.live.length = (List.range x.hub.subs.length).countP x.isOn

/-- What a run of a listener leaves as it is. -/
structure Minds (x : Loopback) (l : LeaseId) (y : Loopback) : Prop where
  entry : ∀ k, k ≠ l → y.memory.listed? k = x.memory.listed? k
  sub : ∀ s, l ∉ x.hub.granted s → y.hub.sub s = x.hub.sub s
  hands : ∀ s e, x.hands l (.listen l) = some (s, e) → x.hub.granted s = [l]

def Adds (m m' : Memory) : Prop :=
  ∀ l s, m'.listed? l = some s → m.listed? l = some s ∨ m.listeners.length ≤ l

/-- An entry whose lease was given back has the lease on its way. -/
def Tracked (x : Loopback) : Prop :=
  ∀ l s, x.memory.listed? l = some s → l ∈ x.hub.returned s → .unsubscribing l ∈ x.hub.stack

section
variable {x y : Loopback} {m m' : Memory} {h : Hub} {ms : List Move} {a : Act} {l k : LeaseId}
variable {s : SubId} {r : Listener} {c : Nat}

/-! ### Entries -/

theorem listed?_iff : m.listed? l = some s ↔ ∃ r, m.listeners[l]? = some r ∧ r.live ∧ r.sub = s := by
  unfold Memory.listed?
  simp only [Option.bind_eq_some_iff, Option.ite_none_right_eq_some, Option.some.injEq]

theorem listed?_eq (hl : m'.listeners = m.listeners) : m'.listed? l = m.listed? l := by
  unfold Memory.listed?
  rw [hl]

theorem mem_live_iff : s ∈ m.live ↔ ∃ l, m.listed? l = some s := by
  rw [mem_live]
  simp only [listed?_iff]

theorem listed?_unsubscribe (m : Memory) (l k : LeaseId) :
    (m.unsubscribe l).listed? k = if l = k then none else m.listed? k := by
  unfold Memory.listed?
  rw [listeners_unsubscribe]
  cases m.listeners[k]? <;> split <;> rfl

theorem listed?_retire (m : Memory) (l k : LeaseId) :
    (m.retire l).listed? k = if l = k then none else m.listed? k := by
  cases hr : m.listeners[l]? with
  | none =>
    have hm : m.retire l = m := by
      unfold Memory.retire
      rw [hr]
    rw [hm]
    split
    · next hlk =>
      unfold Memory.listed?
      rw [← hlk, hr]
      rfl
    · rfl
  | some r =>
    unfold Memory.listed?
    rw [listeners_retire hr, List.getElem?_modify]
    cases m.listeners[k]? <;> split <;> rfl

/-- A listener that runs removes its own entry or none. -/
theorem listed?_listen (m : Memory) (l k : LeaseId) : (m.listen l).2.listed? k = m.listed? k ∨
    l = k ∧ (m.listen l).2.listed? k = none := by
  have retire : ∀ n : Memory, n.listeners = m.listeners →
      (n.retire l).listed? k = m.listed? k ∨ l = k ∧ (n.retire l).listed? k = none := by
    intro n hn
    rw [listed?_retire, listed?_eq hn]
    split
    · next hlk => exact .inr ⟨hlk, rfl⟩
    · exact .inl rfl
  unfold Memory.listen
  split
  · exact .inl rfl
  · split
    · exact .inl rfl
    · split
      · exact retire m rfl
      · dsimp only
        split
        · exact .inl rfl
        · exact retire _ rfl

theorem Adds.of_eq (hl : m'.listeners = m.listeners) : Adds m m' :=
  fun _ _ he => .inl ((listed?_eq hl).symm.trans he)

theorem adds_listen (m : Memory) (l : LeaseId) : Adds m (m.listen l).2 := by
  intro k s he
  rcases listed?_listen m l k with hk | ⟨-, hk⟩
  · exact .inl (hk.symm.trans he)
  · cases hk.symm.trans he

theorem adds_subscribe {key : Key} (hm : m.subscribe key s = .ok (l, m')) : Adds m m' := by
  obtain ⟨-, rfl⟩ := subscribe_eq hm
  intro k t he
  rcases Nat.lt_or_ge k m.listeners.length with hk | hk
  · unfold Memory.listed? at he
    rw [List.getElem?_append_left hk] at he
    exact .inl he
  · exact .inr hk

theorem adds_receivePost (m : Memory) (c : String) : Adds m (m.receivePost c).2 := by
  unfold Memory.receivePost
  dsimp only
  split
  · split <;> exact .of_eq rfl
  · exact .of_eq rfl

/-! ### What is on its way back -/

/-- A lease that was granted before has its entry from before. -/
theorem Tracked.run (hx : Linked x) (ht : Tracked x) (hrun : x.hub.run? ms = some h)
    (hms : ∀ n ∈ ms, n ≠ .unsubscribed) (hm : Adds x.memory m) : Tracked ⟨h, m⟩ := by
  intro l s he hl
  obtain ⟨hst, hret⟩ := Hub.returned_run hx.hub hrun hms
  rcases hret hl with hl | hl
  · obtain ⟨r, hr, -⟩ := hx.leases (hx.hub.granted_of_returned hl)
    have hlt := (List.getElem?_eq_some_iff.1 hr).1
    exact hst (ht l s ((hm l s he).resolve_right (Nat.not_le_of_lt hlt)) hl)
  · exact hl

theorem Tracked.move {n : Move} (hx : Linked x) (ht : Tracked x) (hh : x.hub.move? n = some h)
    (hn : n ≠ .unsubscribed) (hm : Adds x.memory m) : Tracked ⟨h, m⟩ :=
  ht.run hx (Hub.run?_singleton hh) (fun _ hk => List.mem_singleton.1 hk ▸ hn) hm

theorem Tracked.still (hx : Linked x) (ht : Tracked x) (hm : Adds x.memory m) :
    Tracked { x with memory := m } :=
  ht.run hx (show x.hub.run? [] = some x.hub from rfl) (fun _ hk => absurd hk List.not_mem_nil) hm

/-- The lease on top arrives, and its entry goes with it. -/
theorem Tracked.unsubscribed {rest : List Frame} (ht : Tracked x)
    (hst : x.hub.stack = .unsubscribing l :: rest) :
    Tracked ⟨x.hub.pop, x.memory.unsubscribe l⟩ := by
  intro k s he hk
  rw [listed?_unsubscribe] at he
  split at he
  · cases he
  · next hne =>
    have hin := ht k s he hk
    rw [hst] at hin
    show _ ∈ x.hub.stack.tail
    rw [hst]
    refine (List.mem_cons.1 hin).resolve_left fun heq => hne ?_
    cases heq
    rfl

theorem Tracked.act (hx : Linked x) (ht : Tracked x) (ha : Acted x a y) : Tracked y := by
  cases ha with
  | move ho hh => exact ht.move hx hh (by rintro rfl; cases ho) (.of_eq rfl)
  | granted _ hm hh => exact ht.move hx hh nofun (adds_subscribe hm)
  | declined _ _ hh => exact ht.move hx hh nofun (.of_eq rfl)
  | unsubscribed hst hh =>
    cases Hub.moved_of_move? hh
    exact ht.unsubscribed hst
  | received hh => exact ht.move hx hh nofun (adds_receivePost _ _)
  | unheard _ _ => exact ht.still hx (adds_listen _ _)
  | hears _ _ hh | closed _ _ hh => exact ht.move hx hh nofun (adds_listen _ _)
  | published | reconnected => exact ht.still hx (.of_eq rfl)
  | @disconnected e hb =>
    refine ht.run hx (Hub.run_failAll hb e fun s hs => live_lt hx hs) (fun n hn => ?_) (.of_eq rfl)
    obtain ⟨s, -, rfl⟩ := List.mem_map.1 hn
    nofun
  | @arranged a => exact ht.still hx (.of_eq (by cases a <;> rfl))

theorem Reachable.tracked (hx : Reachable c x) : Tracked x := by
  obtain ⟨settings, bus, as, hb, hrun⟩ := hx
  refine (linked_init hb).run_keeps (fun hy ha ht => ht.act hy ha) hrun fun l s he => ?_
  cases he

/-! ### What is listed -/

/-- An entry is that of the subscription that was granted its lease. -/
theorem Linked.granted_of_entry (hx : Linked x) (he : x.memory.listed? l = some s) :
    x.hub.granted s = [l] := by
  obtain ⟨r, hr, -, rfl⟩ := listed?_iff.1 he
  exact hx.hub.granted_eq (hx.listens hr).granted

/-- What is listed is active, or its lease is on its way back. -/
theorem Tracked.active_or (hx : Linked x) (ht : Tracked x) (he : x.memory.listed? l = some s) :
    (x.hub.sub s).isActive ∨ .unsubscribing l ∈ x.hub.stack := by
  cases hs : (x.hub.sub s).isActive with
  | true => exact .inl rfl
  | false =>
    refine .inr (ht l s he ?_)
    rw [(Hub.released_of_tidy (hx.hub.allTidy s)).returned hs, hx.granted_of_entry he]
    exact List.mem_singleton.2 rfl

/-- What is active has its entry under the lease that it was granted. -/
theorem Linked.entry_of_active (hx : Linked x) (ha : (x.hub.sub s).isActive)
    (hg : l ∈ x.hub.granted s) : x.memory.listed? l = some s := by
  obtain ⟨r, hr, rfl⟩ := hx.leases hg
  exact listed?_iff.2 ⟨r, hr, ((hx.listens hr).live ha).1, rfl⟩

/-- No two listeners are for one subscription. -/
theorem Linked.nodup_subs (hx : Linked x) : (x.memory.listeners.map Listener.sub).Nodup := by
  rw [List.Nodup, List.pairwise_iff_getElem]
  intro l k hl hk hlt heq
  rw [List.length_map] at hl hk
  rw [List.getElem_map, List.getElem_map] at heq
  have hgl := hx.hub.granted_eq (hx.listens (List.getElem?_eq_getElem hl)).granted
  have hgk := hx.hub.granted_eq (hx.listens (List.getElem?_eq_getElem hk)).granted
  rw [heq, hgk] at hgl
  exact absurd (List.singleton_inj.1 hgl).symm (Nat.ne_of_lt hlt)

theorem Linked.nodup_live (hx : Linked x) : x.memory.live.Nodup :=
  hx.nodup_subs.sublist (List.filter_sublist.map _)

/-- Between operations the connection lists the active subscriptions that it has granted. -/
theorem Tracked.lists (hx : Linked x) (ht : Tracked x) (hn : x.hub.NoneReturning) : Lists x := by
  have active : ∀ {l s}, x.memory.listed? l = some s → (x.hub.sub s).isActive :=
    fun he => (ht.active_or hx he).resolve_right (hn _)
  have hmem : ∀ s, s ∈ x.memory.live ↔ s ∈ (List.range x.hub.subs.length).filter x.isOn := by
    intro s
    rw [List.mem_filter, List.mem_range]
    constructor
    · intro hs
      obtain ⟨l, he⟩ := mem_live_iff.1 hs
      exact ⟨live_lt hx hs, (hx.live_iff (active he)).1 hs⟩
    · rintro ⟨-, hs⟩
      exact (hx.live_iff (isOn_iff.1 hs).1).2 hs
  have hperm := (List.perm_ext_iff_of_nodup hx.nodup_live (List.nodup_range.filter _)).2 hmem
  refine ⟨fun l s => ⟨fun he => ⟨active he, hx.granted_of_entry he⟩, ?_⟩, ?_⟩
  · rintro ⟨ha, hg⟩
    exact hx.entry_of_active ha (by rw [hg]; exact List.mem_singleton.2 rfl)
  · rw [List.countP_eq_length_filter, hperm.length_eq]

/-- When all sessions are past nothing is listed. -/
theorem Lists.none_of_past (hl : Lists x) (hr : x.hub.Reachable)
    (hp : ∀ i < x.hub.sessions.length, x.hub.Past i) : x.memory.live.length = 0 := by
  rw [hl.count, List.countP_eq_zero]
  intro s hs hon
  have hs := List.mem_range.1 hs
  have hin := (hp _ (hr.wired.homes s hs)).inactive hr hs
  exact absurd (hin.symm.trans (isOn_iff.1 hon).1) Bool.false_ne_true

/-- What is still listed when all sessions are over belongs to sessions that were given up between
their configuration and their first run. -/
theorem Reachable.unrun_of_listed (hx : Reachable c x) (hn : x.hub.NoneReturning)
    (ho : ∀ i < x.hub.sessions.length, (x.hub.session i).isOver) (he : x.memory.listed? l = some s) :
    x.hub.Unrun (x.hub.sub s).home := by
  have hl := hx.linked
  have hs := live_lt hl (mem_live_iff.2 ⟨l, he⟩)
  have ha := (hx.tracked.active_or hl he).resolve_right (hn l)
  refine (hl.hub.past_or_unrun (ho _ (hl.hub.wired.homes s hs))).resolve_left fun hp => ?_
  exact absurd ((hp.inactive hl.hub hs).symm.trans ha) Bool.false_ne_true

/-- There are such entries: a session subscribes while it is configured, and is given up then. -/
theorem unrun_session_listed : ∃ x, Reachable 1 x ∧ x.hub.NoneReturning ∧
    x.hub.sessions.length = 1 ∧ (x.hub.session 0).isOver ∧ x.hub.Unrun 0 ∧
    x.memory.live.length = 1 := by
  obtain ⟨x, hx, hst, hlen, ho, hhome, he⟩ := Reachable.exists_of_run Bus.new?_one
    [.move (.openSession none none), .move (.configure 0), .move (.subscribe default .event), .serve,
      .move .configured, .move (.drop 0)]
    (fun x => x.hub.stack = [] ∧ x.hub.sessions.length = 1 ∧ (x.hub.session 0).isOver ∧
      (x.hub.sub 0).home = 0 ∧ x.memory.listed? 0 = some 0 ∧ x.memory.live.length = 1) (by decide)
  have hn := Hub.noneReturning_of_idle hst
  have hu := hx.unrun_of_listed hn (fun i hi => ?_) he.1
  · rw [hhome] at hu
    exact ⟨x, hx, hn, hlen, ho, hu, he.2⟩
  · rw [hlen, Nat.lt_one_iff] at hi
    rw [hi]
    exact ho

/-- A listener that runs touches nobody else's entry, and no other subscription hears of it. -/
theorem Linked.minds (hx : Linked x) (ha : x.act? (.listen l) = some y) : Minds x l y := by
  have entry : ∀ k, k ≠ l → (x.memory.listen l).2.listed? k = x.memory.listed? k := fun k hk =>
    (listed?_listen x.memory l k).resolve_right fun hl => hk hl.1.symm
  have hands : ∀ s e, x.hands l (.listen l) = some (s, e) → x.hub.granted s = [l] := by
    intro s e hh
    unfold Loopback.hands at hh
    rw [if_pos rfl] at hh
    obtain ⟨r, hr, hh⟩ := Option.bind_eq_some_iff.1 hh
    split at hh
    · cases hh
      exact hx.hub.granted_eq (hx.listens hr).granted
    · cases hh
  generalize hact : Act.listen l = a at ha
  cases acted_of_act? ha with
  | unheard _ _ => cases hact; exact ⟨entry, fun _ _ => rfl, hands⟩
  | hears hr _ hm =>
    cases hact
    refine ⟨entry, fun s hs => ?_, hands⟩
    have hg := (hx.listens hr).granted
    rw [Hub.deliver_of_move? hm]
    exact Hub.sub_deliver_other (hx.hub.granted_lt hg) (by rintro rfl; exact hs hg) _
  | closed hr hc _ => cases hact; exact absurd hc (hx.not_closed hr)
  | _ => cases hact

/-- The connection takes the lease on top back. -/
theorem serve_unsubscribing {rest : List Frame} (hst : x.hub.stack = .unsubscribing l :: rest) :
    ∃ y, x.act? .serve = some y ∧ y.hub.stack = rest ∧ y.memory.listed? l = none := by
  have hb : x.hub.isBusy = false := by
    unfold Hub.isBusy
    rw [hst]
    rfl
  have hm : x.hub.move? .unsubscribed = some x.hub.pop := by
    rw [Hub.move?_of_idle hb, Hub.call?, hst]
  refine ⟨⟨x.hub.pop, x.memory.unsubscribe l⟩, ?_, ?_, ?_⟩
  · unfold act?
    rw [if_neg (by rw [hb]; exact Bool.false_ne_true)]
    unfold serve?
    rw [hst]
    dsimp only
    rw [hm]
    rfl
  · show x.hub.stack.tail = rest
    rw [hst]
    rfl
  · rw [listed?_unsubscribe, if_pos rfl]

/-- A connection lists what is active. An entry is always under the one lease its subscription was
granted; it outlives the subscription only while that lease is on its way back, and goes when it
arrives. While no lease is, the connection lists the active subscriptions that it has granted, all of
them and each once, and nothing when all sessions are past. A listener that runs removes no other
entry and delivers to nobody else. -/
theorem connection_lists_active (hx : Reachable c x) :
    (∀ l s, x.memory.listed? l = some s → x.hub.granted s = [l] ∧
      ((x.hub.sub s).isActive ∨ .unsubscribing l ∈ x.hub.stack)) ∧
    (∀ l rest, x.hub.stack = .unsubscribing l :: rest →
      ∃ y, x.act? .serve = some y ∧ y.hub.stack = rest ∧ y.memory.listed? l = none) ∧
    (x.hub.NoneReturning → Lists x ∧
      ((∀ i < x.hub.sessions.length, x.hub.Past i) → x.memory.live.length = 0)) ∧
    ∀ l y, x.act? (.listen l) = some y → Minds x l y := by
  have hl := hx.linked
  have ht := hx.tracked
  refine ⟨fun l s he => ⟨hl.granted_of_entry he, ht.active_or hl he⟩,
    fun l rest => serve_unsubscribing, fun hn => ?_, fun l y => hl.minds⟩
  have hlists := ht.lists hl hn
  exact ⟨hlists, hlists.none_of_past hl.hub⟩

end

def waitsFor (i : SessionId) (key : Key) : List Act :=
  [.move (.openSession none none), .move (.run i), .move .step, .move (.subscribe key .event), .serve,
    .move .configured, .move .step, .move .step, .move .step, .receive "", .move .step, .move .step]

def bothWait : List Act :=
  waitsFor 0 default ++ waitsFor 1 ⟨"Other", "", ""⟩ ++ [.publish ⟨default, .blank⟩]

def hearsAndEnds (l : LeaseId) (i : SessionId) : List Act :=
  [.listen l, .serve, .move .step, .move (.run i)] ++ List.replicate 9 (.move .step)

def bothEnd : List Act :=
  hearsAndEnds 0 0 ++ [.publish ⟨⟨"Other", "", ""⟩, .blank⟩] ++ hearsAndEnds 1 1

/-- Two subscriptions are listed. One that is cancelled still is until its lease has arrived; when the
listener of one has run the other still is; when both sessions have ended none is. -/
theorem two_listed_until_both_end : ∃ w x y z : Loopback, Reachable 1 x ∧
    x.memory.live.length = 2 ∧ x.memory.listed? 1 = some 1 ∧
    (x.act? (.move (.cancel 0)) = some w ∧ w.memory.listed? 0 = some 0 ∧
      (w.hub.sub 0).isActive = false ∧ ∃ v, w.act? .serve = some v ∧ v.memory.listed? 0 = none) ∧
    (x.act? (.listen 0) = some y ∧ y.memory.listed? 1 = some 1 ∧ y.hub.sub 1 = x.hub.sub 1) ∧
    x.run? bothEnd = some z ∧ z.hub.sessions.length = 2 ∧ z.memory.live.length = 0 := by
  obtain ⟨x, hx, hst, hcount, ha, hg, hn, hw, hy, hz⟩ := Reachable.exists_of_run Bus.new?_one bothWait
    (fun x => x.hub.stack = [] ∧ (List.range x.hub.subs.length).countP x.isOn = 2 ∧
      (x.hub.sub 1).isActive ∧ x.hub.granted 1 = [1] ∧ 0 ∉ x.hub.granted 1 ∧
      ((x.act? (.move (.cancel 0))).any fun w => w.memory.listed? 0 = some 0 ∧
        (w.hub.sub 0).isActive = false ∧ w.hub.stack = [.unsubscribing 0, .reportingCancel 0]) ∧
      (x.act? (.listen 0)).isSome ∧ (x.run? bothEnd).any fun z =>
        z.hub.stack = [] ∧ z.hub.sessions.length = 2 ∧
        (z.hub.session 0).phase = .ended (.resolved (.positive (some default))) ∧
        (z.hub.session 1).phase = .ended (.resolved (.positive (some ⟨"Other", "", ""⟩)))) (by decide)
  obtain ⟨w, hw, hp⟩ := Hub.exists_of_any hw
  obtain ⟨hw0, hin, hwst⟩ := of_decide_eq_true hp
  obtain ⟨y, hy⟩ := Option.isSome_iff_exists.1 hy
  obtain ⟨z, hz, hp⟩ := Hub.exists_of_any hz
  obtain ⟨hzst, hlen, h0, h1⟩ := of_decide_eq_true hp
  obtain ⟨-, -, hlists, hminds⟩ := connection_lists_active hx
  obtain ⟨hl, -⟩ := hlists (Hub.noneReturning_of_idle hst)
  have hm := hminds 0 y hy
  have he := (hl.entry 1 1).2 ⟨ha, hg⟩
  obtain ⟨-, hserve, -, -⟩ := connection_lists_active (hx.act hw)
  obtain ⟨v, hv, -, hgone⟩ := hserve 0 _ hwst
  obtain ⟨-, -, hlists, -⟩ := connection_lists_active (hx.run hz)
  refine ⟨w, x, y, z, hx, hl.count.trans hcount, he, ⟨hw, hw0, hin, v, hv, hgone⟩,
    ⟨hy, (hm.entry 1 (by decide)).trans he, hm.sub 1 hn⟩, hz, hlen,
    (hlists (Hub.noneReturning_of_idle hzst)).2 fun i hi => ?_⟩
  rw [hlen] at hi
  match i, hi with
  | 0, _ => exact .ended h0
  | 1, _ => exact .ended h1

end Loopback
end Aftermath
