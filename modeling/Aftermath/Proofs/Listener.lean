import Aftermath.Proofs.Loopback

/-! What a listener hands over: events of its key that were published after its subscription was
granted, and of these only the first. While no more events come up between its runs than the bus
keeps, it misses none. -/

namespace Aftermath.Loopback

/-- What the listener of a lease hands over in an act, and to whom. -/
def hands (x : Loopback) (l : LeaseId) (a : Act) : Option (SubId × Envelope) :=
  if a = .listen l then
    (x.memory.listeners[l]?).bind fun r =>
      match (x.memory.listen l).1.result with
      | .event e => some (r.sub, e)
      | _ => none
  else none

def handed (x : Loopback) (l : LeaseId) : List Act → List (SubId × Envelope)
  | [] => []
  | a :: as => (x.hands l a).toList ++ ((x.act? a).map fun y => y.handed l as).getD []

def published (as : List Act) : List Envelope := as.flatMap Act.published

/-- How many events have been published since the listener of a lease ran last. -/
def backlog (l : LeaseId) (as : List Act) : Nat :=
  as.foldl (fun n a => if a = .listen l then 0 else n + a.published.length) 0

/-- The listener of a lease runs so often that no more than `n` events come up in between. -/
def KeepsUp (n : Nat) (l : LeaseId) (as : List Act) : Prop :=
  ∀ k, k ≤ as.length → backlog l (as.take k) ≤ n

instance (n : Nat) (l : LeaseId) (as : List Act) : Decidable (KeepsUp n l as) :=
  inferInstanceAs (Decidable (∀ k, k ≤ as.length → backlog l (as.take k) ≤ n))

structure Subscribed (x : Loopback) (s : SubId) (l : LeaseId) (y : Loopback) : Prop where
  asks : x.hub.stack.head? = some (.subscribing s)
  grants : ∃ m, x.memory.subscribe (x.hub.sub s).key s = .ok (l, m)
  serves : x.act? .serve = some y

section
variable {x y z : Loopback} {l : LeaseId} {r : Listener} {s : SubId} {key : Key} {n c : Nat}
variable {a : Act} {as bs : List Act} {base log : List Envelope} {got : List (SubId × Envelope)}

/-! ### Runs -/

theorem published_concat (as : List Act) (a : Act) :
    published (as ++ [a]) = published as ++ a.published := by
  simp [published]

theorem backlog_other (hn : a ≠ .listen l) :
    backlog l (as ++ [a]) = backlog l as + a.published.length := by
  unfold backlog
  rw [List.foldl_append, List.foldl_cons, List.foldl_nil, if_neg hn]

theorem backlog_listen : backlog l (as ++ [.listen l]) = 0 := by
  unfold backlog
  rw [List.foldl_append, List.foldl_cons, List.foldl_nil, if_pos rfl]

theorem KeepsUp.before (hk : KeepsUp n l (as ++ [a])) : KeepsUp n l as := by
  intro k hle
  have hk := hk k (by rw [List.length_append]; omega)
  rwa [List.take_append_of_le_length hle] at hk

theorem KeepsUp.now (hk : KeepsUp n l as) : backlog l as ≤ n := by
  have hk := hk as.length (Nat.le_refl _)
  rwa [List.take_length] at hk

theorem handed_concat (hrun : x.run? as = some y) (a : Act) :
    x.handed l (as ++ [a]) = x.handed l as ++ (y.hands l a).toList := by
  induction as generalizing x with
  | nil =>
    cases hrun
    simp only [List.nil_append, handed]
    cases y.act? a <;> simp
  | cons b as ih =>
    obtain ⟨z, hz, hrun⟩ := Option.bind_eq_some_iff.1 hrun
    simp only [List.cons_append, handed, hz, Option.map_some, Option.getD_some, ih hrun,
      List.append_assoc]

/-! ### A listener that others let alone -/

structure Spares (x y : Loopback) (l : LeaseId) (r : Listener) (added : List Envelope) : Prop where
  listener : ∃ r', y.memory.listeners[l]? = some r' ∧ r'.key = r.key ∧ r'.sub = r.sub ∧
    r'.retired = r.retired
  receiver : y.memory.bus.receivers[l]? = x.memory.bus.receivers[l]?
  log : ∀ {log}, x.memory.bus.Holds log →
    y.memory.bus.Holds (if x.memory.bus.subscriberCount = 0 then log else log ++ added)

theorem Changes.spares (hx : Linked x) (hr : x.memory.listeners[l]? = some r) (hn : a ≠ .listen l)
    (hc : Changes x a y) : Spares x y l r a.published := by
  have hlt := (List.getElem?_eq_some_iff.1 hr).1
  cases hc with
  | grants ha _ hm _ =>
    obtain ⟨-, hm⟩ := subscribe_eq hm
    rw [ha]
    exact {
      listener := ⟨r, by rw [hm, List.getElem?_append_left hlt]; exact hr, rfl, rfl, rfl⟩
      receiver := by
        rw [hm, Bus.subscribe, List.getElem?_append_left (by rw [hx.receivers]; exact hlt)]
      log := fun hlog => by rw [hm]; refine holds_same hlog ?_ ?_ ?_ _ <;> rfl }
  | @keeps _ touched _ _ hm ht _ =>
    by_cases hk : touched = some l
    · -- Only the lease of the listener that runs and one that comes back are touched.
      have hu := (ht hk).resolve_left hn
      refine ⟨⟨{ r with live := false, stopped := true }, ?_, rfl, rfl, rfl⟩, ?_, hm.log⟩
      · rw [hu, listeners_unsubscribe, hr, Option.map_some, if_pos rfl]
      · rw [hu]
        rfl
    · obtain ⟨hr', hn'⟩ := hm.other hk
      exact ⟨⟨r, hr'.trans hr, rfl, rfl, rfl⟩, hn', hm.log⟩

theorem Changes.capacity (hc : Changes x a y) :
    y.memory.bus.capacity = x.memory.bus.capacity := by
  cases hc with
  | grants _ _ hm _ => rw [(subscribe_eq hm).2]; rfl
  | keeps _ _ hm _ _ => exact hm.capacity

theorem capacity_run (hx : Linked x) (hrun : x.run? as = some y) :
    y.memory.bus.capacity = x.memory.bus.capacity :=
  hx.run_keeps (P := fun z => z.memory.bus.capacity = x.memory.bus.capacity)
    (fun hy ha hc => (hy.changes ha).capacity.trans hc) hrun rfl

theorem Reachable.capacity (hx : Reachable c x) :
    x.memory.bus.capacity = c.nextPowerOfTwo := by
  obtain ⟨settings, bus, as, hb, hrun⟩ := hx
  rw [capacity_run (linked_init hb) hrun]
  exact (Bus.holds_new hb).2.1

/-! ### A listener from its subscription on -/

/-- The listener has not handed anything over yet and is at the event `n`. As long as it has kept up
it is not further behind than what has been published since it ran, and none of the events before
was of its key. -/
structure Reading (base : List Envelope) (s : SubId) (key : Key) (l : LeaseId) (as : List Act)
    (x : Loopback) (r : Listener) (n : Nat) : Prop where
  listener : x.memory.listeners[l]? = some r
  keyed : r.key = key
  owned : r.sub = s
  on : r.retired = false
  log : x.memory.bus.Holds (base ++ published as)
  receiver : x.memory.bus.receivers[l]? = some (some n)
  since : base.length ≤ n
  within : n ≤ base.length + (published as).length
  passed : KeepsUp x.memory.bus.capacity l as →
    base.length + (published as).length - n ≤ backlog l as ∧
    ((published as).take (n - base.length)).find? (fun e => e.key = key) = none

/-- How far a listener has come since it was made, when `as` has happened. -/
inductive Follows (base : List Envelope) (s : SubId) (key : Key) (l : LeaseId) (as : List Act)
    (x : Loopback) : List (SubId × Envelope) → Prop where
  | reading {r : Listener} {n : Nat} : Reading base s key l as x r n → Follows base s key l as x []
  | ended {r : Listener} {got : List (SubId × Envelope)} : x.memory.listeners[l]? = some r →
      r.sub = s → r.retired → got.length ≤ 1 →
      (∀ p ∈ got, p.1 = s ∧ p.2.key = key ∧ p.2 ∈ published as) → Follows base s key l as x got

theorem Reading.aside (hf : Reading base s key l as x r n)
    (hc : y.memory.bus.capacity = x.memory.bus.capacity)
    (hs : Spares x y l r a.published) (hn : a ≠ .listen l) :
    ∃ r', Reading base s key l (as ++ [a]) y r' n := by
  obtain ⟨r', hr', hkey, hsub, hret⟩ := hs.listener
  refine ⟨r', {
    listener := hr'
    keyed := hkey.trans hf.keyed
    owned := hsub.trans hf.owned
    on := hret.trans hf.on
    log := ?_
    receiver := hs.receiver.trans hf.receiver
    since := hf.since
    within := ?_
    passed := fun hk => ?_ }⟩
  · have hlog := hs.log hf.log
    rw [if_neg (Bus.subscriberCount_pos hf.receiver), List.append_assoc] at hlog
    rw [published_concat]
    exact hlog
  · have hw := hf.within
    rw [published_concat, List.length_append]
    omega
  · rw [hc] at hk
    obtain ⟨hle, hnone⟩ := hf.passed hk.before
    have hw := hf.within
    rw [published_concat, List.length_append, backlog_other hn,
      List.take_append_of_le_length (by omega)]
    exact ⟨by omega, hnone⟩

/-- What a listener has still to read was published after it was made. -/
theorem Reading.unread_eq (hf : Reading base s key l as x r n) :
    x.memory.bus.unread (base ++ published as) n = (published as).drop
      (max n (base.length + (published as).length - x.memory.bus.capacity) - base.length) := by
  have hs := hf.since
  unfold Bus.unread
  rw [List.length_append, List.drop_append, List.drop_eq_nil_of_le (by omega), List.nil_append]

/-- A listener that has kept up finds the first event of its key that was published after it was
made. -/
theorem Reading.find?_unread (hf : Reading base s key l as x r n)
    (hk : KeepsUp x.memory.bus.capacity l as) :
    (x.memory.bus.unread (base ++ published as) n).find? (fun e => e.key = key) =
      (published as).find? fun e => e.key = key := by
  obtain ⟨hle, hnone⟩ := hf.passed hk
  have hb := hk.now
  rw [hf.unread_eq, Nat.max_eq_left (by omega)]
  have hsplit := List.take_append_drop (n - base.length) (published as)
  calc ((published as).drop (n - base.length)).find? (fun e => e.key = key)
    _ = (((published as).take (n - base.length)).find? fun e => e.key = key).or
          (((published as).drop (n - base.length)).find? fun e => e.key = key) := by
      rw [hnone]
      rfl
    _ = (published as).find? fun e => e.key = key := by
      rw [← List.find?_append, hsplit]

theorem hands_listen (hr : x.memory.listeners[l]? = some r) :
    x.hands l (.listen l) = match (x.memory.listen l).1.result with
      | .event e => some (r.sub, e)
      | _ => none := by
  unfold hands
  rw [if_pos rfl, hr]
  rfl

theorem hands_other (hn : a ≠ .listen l) : x.hands l a = none := if_neg hn

theorem memory_listen (ha : Acted x (.listen l) y) : y.memory = (x.memory.listen l).2 := by
  cases ha <;> rfl

/-- The listener runs for the first time since it was made, or has found nothing so far. -/
theorem Reading.listens (hx : Linked x) (hf : Reading base s key l as x r n)
    (ha : Acted x (.listen l) y) :
    Follows base s key l (as ++ [.listen l]) y (x.hands l (.listen l)).toList := by
  have hr := hf.listener
  have hm := memory_listen ha
  have hh := hands_listen hr
  have hruns := hx.runs hf.log hr
  have hp : published (as ++ [.listen l]) = published as := by
    rw [published_concat]
    exact List.append_nil _
  have gone : y.memory = x.memory.retire l →
      y.memory.listeners[l]? = some { r with live := false, retired := true } := by
    intro hm
    rw [hm]
    exact listener_retire hr
  rw [hh]
  generalize x.memory.listen l = p at hm hruns
  cases hruns with
  | ended hret => exact absurd (hf.on.symm.trans hret) Bool.false_ne_true
  | stops hret hst =>
    exact .ended (gone hm) hf.owned rfl (Nat.zero_le 1)
      fun _ hin => absurd hin List.not_mem_nil
  | @waits n' lags hret hst hn hnone =>
    cases Option.some.inj (Option.some.inj (hn.symm.trans hf.receiver))
    rw [hf.keyed] at hnone
    refine .reading (r := r) (n := (base ++ published as).length) {
      listener := by rw [hm]; exact hr
      keyed := hf.keyed
      owned := hf.owned
      on := hf.on
      log := by rw [hm, hp]; exact hf.log.moved l _
      receiver := by rw [hm]; exact Bus.receivers_moved hn _
      since := by rw [List.length_append]; exact Nat.le_add_right _ _
      within := Nat.le_of_eq (by rw [hp, List.length_append])
      passed := fun hk => ?_ }
    rw [hm] at hk
    rw [hp, backlog_listen, List.length_append]
    refine ⟨by omega, ?_⟩
    rw [List.take_of_length_le (by omega), ← hf.find?_unread hk.before]
    exact hnone
  | @hears n' lags e hret hst hn hfind =>
    cases Option.some.inj (Option.some.inj (hn.symm.trans hf.receiver))
    rw [hf.keyed, hf.unread_eq] at hfind
    refine .ended (gone hm) hf.owned rfl (Nat.le_refl 1) fun q hq => ?_
    cases List.mem_singleton.1 hq
    refine ⟨hf.owned, by simpa using List.find?_some hfind, ?_⟩
    rw [hp]
    exact List.mem_of_mem_drop (List.mem_of_find?_eq_some hfind)

theorem Follows.act (hx : Linked x) (hf : Follows base s key l as x got) (ha : Acted x a y) :
    Follows base s key l (as ++ [a]) y (got ++ (x.hands l a).toList) := by
  cases hf with
  | @reading r n hf =>
    by_cases hn : a = .listen l
    · subst hn
      exact hf.listens hx ha
    · have hc := hx.changes ha
      obtain ⟨r', hf'⟩ := hf.aside hc.capacity (hc.spares hx hf.listener hn) hn
      rw [hands_other hn]
      exact .reading hf'
  | @ended r got hr hsub hret hlen hall =>
    have hin : ∀ p ∈ got, p.1 = s ∧ p.2.key = key ∧ p.2 ∈ published (as ++ [a]) := by
      intro p hp
      obtain ⟨hs, hk, he⟩ := hall p hp
      rw [published_concat]
      exact ⟨hs, hk, List.mem_append_left _ he⟩
    by_cases hn : a = .listen l
    · subst hn
      obtain ⟨log, hlog⟩ := hx.log
      have hm := memory_listen ha
      have hh := hands_listen hr
      have hruns := hx.runs hlog hr
      generalize x.memory.listen l = p at hm hh hruns
      cases hruns with
      | ended _ =>
        rw [hh]
        simp only [Option.toList_none, List.append_nil]
        exact .ended (by rw [hm]; exact hr) hsub hret hlen hin
      | stops hon _ | waits hon _ _ _ | hears hon _ _ _ =>
        exact absurd (hon.symm.trans hret) Bool.false_ne_true
    · obtain ⟨r', hr', hkey', hsub', hret'⟩ := ((hx.changes ha).spares hx hr hn).listener
      rw [hands_other hn, Option.toList_none, List.append_nil]
      exact .ended hr' (hsub'.trans hsub) (hret'.trans hret) hlen hin

theorem Follows.run (hx : Linked x) (hf : Follows base s key l as x got)
    (hrun : x.run? bs = some y) : Follows base s key l (as ++ bs) y (got ++ x.handed l bs) := by
  induction bs generalizing x as got with
  | nil =>
    cases hrun
    simpa [handed] using hf
  | cons a bs ih =>
    obtain ⟨z, hz, hrun⟩ := Option.bind_eq_some_iff.1 hrun
    have ha := acted_of_act? hz
    have hnext := ih (hx.act ha) (hf.act hx ha) hrun
    rw [List.append_assoc, List.append_assoc] at hnext
    simpa only [handed, hz, Option.map_some, Option.getD_some, List.singleton_append] using hnext

/-- A listener that has just been made. -/
theorem Subscribed.reading (hx : Linked x) (hs : Subscribed x s l y)
    (hlog : x.memory.bus.Holds log) :
    ∃ r, Reading log s (x.hub.sub s).key l [] y r log.length := by
  obtain ⟨m, hm⟩ := hs.grants
  have hasks := hs.asks
  have hmem : y.memory = m := by
    have ha := acted_of_act? hs.serves
    cases ha with
    | granted hst hm' _ =>
      rw [hst] at hasks
      cases hasks
      cases hm.symm.trans hm'
      rfl
    | declined hst he _ =>
      rw [hst] at hasks
      cases hasks
      cases hm.symm.trans he
    | unsubscribed hst _ =>
      rw [hst] at hasks
      cases hasks
  obtain ⟨rfl, rfl⟩ := subscribe_eq hm
  refine ⟨{ key := (x.hub.sub s).key, sub := s, receiver := x.memory.bus.receivers.length }, {
    listener := by rw [hmem]; exact List.getElem?_concat_length
    keyed := rfl
    owned := rfl
    on := rfl
    log := by rw [hmem, published, List.flatMap_nil, List.append_nil]; exact ⟨hlog.sent, hlog.kept⟩
    receiver := ?_
    since := Nat.le_refl _
    within := Nat.le_refl _
    passed := fun _ => ⟨Nat.le_of_eq (Nat.sub_self _), by rw [Nat.sub_self]; rfl⟩ }⟩
  rw [hmem, ← hlog.sent, ← hx.receivers]
  exact List.getElem?_concat_length

theorem Follows.sound (hf : Follows base s key l as x got) :
    got.length ≤ 1 ∧ ∀ p ∈ got, p.1 = s ∧ p.2.key = key ∧ p.2 ∈ published as := by
  cases hf with
  | reading _ => exact ⟨Nat.zero_le 1, fun _ hp => absurd hp List.not_mem_nil⟩
  | ended _ _ _ hlen hall => exact ⟨hlen, hall⟩

/-- As long as its subscription is active a listener has not handed anything over. -/
theorem Follows.of_active (hx : Linked x) (hf : Follows base s key l as x got)
    (ha : (x.hub.sub s).isActive) : got = [] ∧ ∃ r n, Reading base s key l as x r n := by
  cases hf with
  | reading hf => exact ⟨rfl, _, _, hf⟩
  | ended hr hsub hret _ _ =>
    subst hsub
    have hon := ((hx.listens hr).live ha).2.2
    exact absurd (hon.symm.trans hret) Bool.false_ne_true

/-- The listener of an active subscription that has kept up hands over the first event of its key,
if there has been one. -/
theorem Reading.hands_first (hx : Linked x) (hf : Reading base s key l as x r n)
    (ha : (x.hub.sub s).isActive) (hb : x.hub.isBusy = false)
    (hk : KeepsUp x.memory.bus.capacity l as) :
    ∃ y, x.act? (.listen l) = some y ∧
      x.hands l (.listen l) = ((published as).find? fun e => e.key = key).map (s, ·) ∧
      ((published as).any (fun e => e.key = key) → (y.hub.sub s).state = .fired) := by
  have hr := hf.listener
  have hls := hx.listens hr
  have hlt := hx.hub.granted_lt hls.granted
  rw [hf.owned] at hlt
  have hst : r.stopped = false := by
    apply (hls.live _).2.1
    rw [hf.owned]
    exact ha
  have hh := hands_listen hr
  have hfind := hf.find?_unread hk
  have hruns := hx.runs hf.log hr
  have hact : x.act? (.listen l) = x.listen? l := by
    unfold act?
    rw [if_neg (by rw [hb]; exact Bool.false_ne_true)]
  rw [hact, hh]
  unfold listen?
  rw [hr]
  dsimp only
  generalize x.memory.listen l = p at hruns
  cases hruns with
  | ended hret => exact absurd (hf.on.symm.trans hret) Bool.false_ne_true
  | stops _ hstop => exact absurd (hst.symm.trans hstop) Bool.false_ne_true
  | @waits n' lags _ _ hn hnone =>
    cases Option.some.inj (Option.some.inj (hn.symm.trans hf.receiver))
    rw [hf.keyed, hfind] at hnone
    refine ⟨_, rfl, by rw [hnone]; rfl, fun hany => ?_⟩
    rw [List.find?_eq_none] at hnone
    obtain ⟨e, he, hek⟩ := List.any_eq_true.1 hany
    exact absurd hek (hnone e he)
  | @hears n' lags e _ _ hn hsome =>
    cases Option.some.inj (Option.some.inj (hn.symm.trans hf.receiver))
    rw [hf.keyed, hfind] at hsome
    have hek : e.key = (x.hub.sub s).key := by
      rw [← hf.owned, ← hls.key, hf.keyed]
      simpa using List.find?_some hsome
    dsimp only
    rw [hf.owned, Hub.move?_deliver hb hlt]
    refine ⟨_, rfl, by rw [hsome]; rfl, fun _ => Hub.state_deliver hlt hek ha⟩

/-- A connection loses nothing that its bus can keep. A listener hands to its own subscription only
events of the exact key of this that were published since it was granted, and at most one. If no
more events have come up between its runs than the bus keeps and the subscription is still active,
it has handed over nothing so far, and the next time it runs it hands over the first such event. -/
theorem listener_loses_nothing (hx : Reachable c x) (hs : Subscribed x s l y)
    (hrun : y.run? as = some z) :
    (∀ p ∈ y.handed l as, p.1 = s ∧ p.2.key = (x.hub.sub s).key ∧ p.2 ∈ published as) ∧
    (y.handed l as).length ≤ 1 ∧
    (KeepsUp c.nextPowerOfTwo l as → (z.hub.sub s).isActive → z.hub.isBusy = false →
      ∃ z', z.act? (.listen l) = some z' ∧
        y.handed l (as ++ [.listen l]) =
          ((published as).find? fun e => e.key = (x.hub.sub s).key).toList.map (s, ·) ∧
        ((published as).any (fun e => e.key = (x.hub.sub s).key) →
          (z'.hub.sub s).state = .fired)) := by
  have hlx := hx.linked
  obtain ⟨log, hlog⟩ := hlx.log
  obtain ⟨r, hf⟩ := hs.reading hlx hlog
  have hly : Linked y := hlx.act (acted_of_act? hs.serves)
  have hlz : Linked z := hly.run hrun
  have hfz := (Follows.reading hf).run hly hrun
  rw [List.nil_append, List.nil_append] at hfz
  obtain ⟨hlen, hall⟩ := hfz.sound
  refine ⟨hall, hlen, fun hk ha hb => ?_⟩
  have hc : z.memory.bus.capacity = c.nextPowerOfTwo := by
    rw [capacity_run hly hrun, (hlx.changes (acted_of_act? hs.serves)).capacity, hx.capacity]
  obtain ⟨hnone, r', n, hf'⟩ := hfz.of_active hlz ha
  rw [← hc] at hk
  obtain ⟨z', hz', hfirst, hfired⟩ := hf'.hands_first hlz ha hb hk
  refine ⟨z', hz', ?_, hfired⟩
  rw [handed_concat hrun, hnone, hfirst, Option.toList_map]
  rfl

end

/-- A session asks for its first subscription. -/
def asksFirst : List Act :=
  [.move (.openSession none none), .move (.run 0), .move .step, .move (.subscribe default .event)]

def oneByOne : List Act :=
  [.publish ⟨⟨"Other", "", ""⟩, .blank⟩, .listen 0, .publish ⟨default, .blank⟩]

theorem event_behind_another_arrives : ∃ x y z z' : Loopback, Reachable 1 x ∧ Subscribed x 0 0 y ∧
    y.run? oneByOne = some z ∧ z.act? (.listen 0) = some z' ∧
    y.handed 0 (oneByOne ++ [.listen 0]) = [(0, ⟨default, .blank⟩)] ∧
    (z'.hub.sub 0).state = .fired := by
  obtain ⟨x, hx, hasks, hkey, hl, hserve⟩ := Reachable.exists_of_run Bus.new?_one asksFirst
    (fun x => x.hub.stack.head? = some (.subscribing 0) ∧ (x.hub.sub 0).key = default ∧
      (x.memory.subscribe (x.hub.sub 0).key 0).toOption.any (·.1 = 0) ∧
      (x.act? .serve).any fun y => (y.run? oneByOne).any fun z =>
        (z.hub.sub 0).isActive && !z.hub.isBusy) (by decide)
  obtain ⟨y, hy, hrun⟩ := Hub.exists_of_any hserve
  obtain ⟨z, hz, hp⟩ := Hub.exists_of_any hrun
  obtain ⟨ha, hb⟩ := Bool.and_eq_true_iff.1 hp
  have hs : Subscribed x 0 0 y := by
    refine ⟨hasks, ?_, hy⟩
    cases hg : x.memory.subscribe (x.hub.sub 0).key 0 with
    | error e => rw [hg] at hl; cases hl
    | ok p =>
      obtain ⟨l, m⟩ := p
      rw [hg] at hl
      cases of_decide_eq_true hl
      exact ⟨m, rfl⟩
  obtain ⟨-, -, hfirst⟩ := listener_loses_nothing hx hs hz
  have hk : KeepsUp (Nat.nextPowerOfTwo 1) 0 oneByOne := by
    rw [Bus.nextPowerOfTwo_one]
    decide
  obtain ⟨z', hz', hh, hf⟩ := hfirst hk ha (by simpa using hb)
  rw [hkey] at hh hf
  exact ⟨x, y, z, z', hx, hs, hz, hz', hh, hf (by decide)⟩

end Aftermath.Loopback
