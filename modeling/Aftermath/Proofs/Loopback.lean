import Aftermath.Proofs.Bus
import Aftermath.Proofs.Loopback.Basic

/-! The hub and its connection agree on each lease. A lease that was granted has a listener of its
own; as long as its subscription is active the listener is live, has not been told to stop and has
its receiver on the bus. -/

namespace Aftermath.Loopback

def Reads (m : Memory) (l : LeaseId) : Prop :=
  ∃ n, m.bus.receivers[l]? = some (some n) ∧ n ≤ m.bus.sent

/-- What holds of the listener of a lease. -/
structure Listens (x : Loopback) (l : LeaseId) (r : Listener) : Prop where
  receiver : r.receiver = l
  key : r.key = (x.hub.sub r.sub).key
  granted : l ∈ x.hub.granted r.sub
  live : (x.hub.sub r.sub).isActive → r.live ∧ r.stopped = false ∧ r.retired = false
  reads : r.retired = false → Reads x.memory l

/-- The hub and its connection agree. -/
structure Linked (x : Loopback) : Prop where
  hub : x.hub.Reachable
  log : ∃ log, x.memory.bus.Holds log
  handles : x.memory.bus.handles = 1
  receivers : x.memory.bus.receivers.length = x.memory.listeners.length
  listens : ∀ {l r}, x.memory.listeners[l]? = some r → Listens x l r
  leases : ∀ {s l}, l ∈ x.hub.granted s → ∃ r, x.memory.listeners[l]? = some r ∧ r.sub = s

/-- A hub with a connection on a new bus that has come from nothing. The bus is asked to hold so
many events. -/
def Reachable (capacity : Nat) (x : Loopback) : Prop :=
  ∃ (settings : Settings) (bus : Bus Envelope) (as : List Act), Bus.new? capacity = some bus ∧
    run? { hub := { settings }, memory := { bus } } as = some x

section
variable {x y z : Loopback} {l k : LeaseId} {r : Listener} {s : SubId} {a : Act} {c : Nat}
variable {h : Hub} {m : Memory} {ms : List Move} {as : List Act}

/-! ### The memory after its operations -/

theorem listeners_retire (hr : m.listeners[l]? = some r) :
    (m.retire l).listeners =
      m.listeners.modify l fun x => { x with live := false, retired := true } := by
  unfold Memory.retire
  rw [hr]
  rfl

theorem listener_retire (hr : m.listeners[l]? = some r) :
    (m.retire l).listeners[l]? = some { r with live := false, retired := true } := by
  rw [listeners_retire hr, List.getElem?_modify_eq, hr]
  rfl

theorem bus_retire (hr : m.listeners[l]? = some r) :
    (m.retire l).bus = m.bus.dropReceiver r.receiver := by
  unfold Memory.retire
  rw [hr]

theorem mem_live : s ∈ m.live ↔ ∃ (l : LeaseId) (r : Listener), m.listeners[l]? = some r ∧ r.live ∧
    r.sub = s := by
  unfold Memory.live
  constructor
  · intro hs
    obtain ⟨r, hr, rfl⟩ := List.mem_map.1 hs
    obtain ⟨hin, hlive⟩ := List.mem_filter.1 hr
    obtain ⟨l, hl⟩ := List.mem_iff_getElem?.1 hin
    exact ⟨l, r, hl, hlive, rfl⟩
  · rintro ⟨l, r, hl, hlive, rfl⟩
    exact List.mem_map.2 ⟨r, List.mem_filter.2 ⟨List.mem_of_getElem? hl, hlive⟩, rfl⟩

/-- A lease that is granted is a new one, with a listener for it. -/
theorem subscribe_eq {m' : Memory} {key : Key} (hm : m.subscribe key s = .ok (l, m')) :
    l = m.listeners.length ∧ m' = { m with
      bus := m.bus.subscribe
      listeners := m.listeners ++ [{ key, sub := s, receiver := m.bus.receivers.length }] } := by
  unfold Memory.subscribe at hm
  split at hm
  · cases hm
  · split at hm
    · cases hm; exact ⟨rfl, rfl⟩
    · cases hm

inductive Runs (m : Memory) (log : List Envelope) (l : LeaseId) (r : Listener) :
    Heard × Memory → Prop where
  | ended : r.retired → Runs m log l r (⟨.nothing, []⟩, m)
  | stops : r.retired = false → r.stopped → Runs m log l r (⟨.stop, []⟩, m.retire l)
  | waits {n lags} : r.retired = false → r.stopped = false →
      m.bus.receivers[l]? = some (some n) →
      (m.bus.unread log n).find? (fun e => e.key = r.key) = none →
      Runs m log l r (⟨.nothing, lags⟩, { m with bus := m.bus.moved l log.length })
  | hears {n lags e} : r.retired = false → r.stopped = false →
      m.bus.receivers[l]? = some (some n) →
      (m.bus.unread log n).find? (fun e => e.key = r.key) = some e →
      Runs m log l r (⟨.event e, lags⟩, m.retire l)

/-- Where a receiver was does not matter once it is dropped. -/
theorem retire_moved (hr : m.listeners[l]? = some r) (hrec : r.receiver = l) (n : Nat) :
    { m with bus := m.bus.moved l n }.retire l = m.retire l := by
  unfold Memory.retire
  dsimp only
  rw [hr]
  simp only [Memory.onListener, Bus.dropReceiver, Bus.moved, hrec, List.set_set]

theorem Linked.runs (hx : Linked x) {log : List Envelope} (hb : x.memory.bus.Holds log)
    (hr : x.memory.listeners[l]? = some r) : Runs x.memory log l r (x.memory.listen l) := by
  have hl := hx.listens hr
  unfold Memory.listen
  rw [hr]
  dsimp only
  cases hret : r.retired with
  | true => exact .ended hret
  | false =>
    cases hst : r.stopped with
    | true => exact .stops hret hst
    | false =>
      obtain ⟨n, hn, hle⟩ := hl.reads hret
      rw [hb.sent] at hle
      obtain ⟨lags, p, he, -, -, hnone⟩ := Memory.hear_unread r.key hb
        (by rw [hx.handles]; exact Nat.one_ne_zero) hn hle
      rw [hl.receiver, he]
      cases hf : (x.memory.bus.unread log n).find? fun e => e.key = r.key with
      | none =>
        rw [hnone hf]
        exact .waits hret hst hn hf
      | some e =>
        rw [if_neg (by simp), retire_moved hr hl.receiver]
        exact .hears hret hst hn hf

/-- What an operation of the connection keeps that makes no listener: it touches one lease at most,
the listener of which only comes nearer to its end. -/
structure Keeps (m m' : Memory) (touched : Option LeaseId) (added : List Envelope) : Prop where
  log : ∀ {log}, m.bus.Holds log →
    m'.bus.Holds (if m.bus.subscriberCount = 0 then log else log ++ added)
  handles : m'.bus.handles = m.bus.handles
  capacity : m'.bus.capacity = m.bus.capacity
  receivers : m'.bus.receivers.length = m.bus.receivers.length
  length : m'.listeners.length = m.listeners.length
  other : ∀ {k}, touched ≠ some k →
    m'.listeners[k]? = m.listeners[k]? ∧ m'.bus.receivers[k]? = m.bus.receivers[k]?
  touched : ∀ {k r'}, touched = some k → m'.listeners[k]? = some r' →
    ∃ r, m.listeners[k]? = some r ∧ r'.receiver = r.receiver ∧ r'.key = r.key ∧ r'.sub = r.sub ∧
      (r'.retired = false → r.retired = false ∧ (Reads m k → Reads m' k))

theorem holds_same {b b' : Bus Envelope} {log : List Envelope} (hb : b.Holds log)
    (hs : b'.sent = b.sent) (hk : b'.kept = b.kept) (hc : b'.capacity = b.capacity) (n : Nat) :
    b'.Holds (if n = 0 then log else log ++ []) := by
  rw [List.append_nil, ite_self]
  exact ⟨hs.trans hb.sent, by rw [hk, hc]; exact hb.kept⟩

theorem Keeps.of_eq {m' : Memory} (hb : m'.bus = m.bus) (hl : m'.listeners = m.listeners) :
    Keeps m m' none [] where
  log hlog := by rw [hb]; refine holds_same hlog ?_ ?_ ?_ _ <;> rfl
  handles := by rw [hb]
  capacity := by rw [hb]
  receivers := by rw [hb]
  length := by rw [hl]
  other _ := by rw [hb, hl]; exact ⟨rfl, rfl⟩
  touched hk := by cases hk

theorem keeps_publish (e : Envelope) : Keeps m (m.publish e) none [e] := by
  have hb : (m.publish e).bus.receivers = m.bus.receivers ∧
      (m.publish e).bus.handles = m.bus.handles ∧
      (m.publish e).bus.capacity = m.bus.capacity := by
    unfold Memory.publish Bus.emit
    dsimp only
    split <;> exact ⟨rfl, rfl, rfl⟩
  exact {
    log := fun hlog => hlog.emit e
    handles := hb.2.1
    capacity := hb.2.2
    receivers := by rw [hb.1]
    length := rfl
    other := fun _ => ⟨rfl, by rw [hb.1]⟩
    touched := fun hk => by cases hk }

theorem keeps_moved {log : List Envelope} (hb : m.bus.Holds log) :
    Keeps m { m with bus := m.bus.moved l log.length } (some l) [] where
  log hlog := by refine holds_same hlog ?_ ?_ ?_ _ <;> rfl
  handles := rfl
  capacity := rfl
  receivers := List.length_set
  length := rfl
  other hk := ⟨rfl, List.getElem?_set_ne fun h => hk (congrArg some h)⟩
  touched {k r'} hk hr' := by
    cases hk
    refine ⟨r', hr', rfl, rfl, rfl, fun hret => ⟨hret, fun ⟨n, hn, _⟩ => ?_⟩⟩
    exact ⟨log.length, Bus.receivers_moved hn _, Nat.le_of_eq hb.sent.symm⟩

theorem keeps_retire (hr : m.listeners[l]? = some r) (hrec : r.receiver = l) :
    Keeps m (m.retire l) (some l) [] := by
  have hl := listeners_retire hr
  have hb := bus_retire hr
  rw [hrec] at hb
  exact {
    log := fun hlog => by rw [hb]; refine holds_same hlog ?_ ?_ ?_ _ <;> rfl
    handles := by rw [hb]; rfl
    capacity := by rw [hb]; rfl
    receivers := by rw [hb]; exact List.length_set
    length := by rw [hl, List.length_modify]
    other := fun hk => by
      have hne := fun h => hk (congrArg some h)
      rw [hl, hb]
      exact ⟨List.getElem?_modify_ne _ _ hne, List.getElem?_set_ne hne⟩
    touched := fun {k r'} hk hr' => by
      cases hk
      cases (listener_retire hr).symm.trans hr'
      exact ⟨r, hr, rfl, rfl, rfl, fun hn => absurd hn.symm Bool.false_ne_true⟩ }

theorem listeners_unsubscribe (m : Memory) (l k : LeaseId) :
    (m.unsubscribe l).listeners[k]? = (m.listeners[k]?).map fun r =>
      if l = k then { r with live := false, stopped := true } else r := by
  unfold Memory.unsubscribe Memory.onListener
  dsimp only
  rw [List.getElem?_modify]
  by_cases hkl : l = k <;> simp [hkl]

theorem keeps_unsubscribe : Keeps m (m.unsubscribe l) (some l) [] where
  log hlog := by refine holds_same hlog ?_ ?_ ?_ _ <;> rfl
  handles := rfl
  capacity := rfl
  receivers := rfl
  length := List.length_modify ..
  other hk := by
    have hne := fun h => hk (congrArg some h)
    rw [listeners_unsubscribe]
    simp only [if_neg hne, Option.map_id']
    exact ⟨trivial, rfl⟩
  touched hk hr' := by
    cases hk
    rw [listeners_unsubscribe] at hr'
    obtain ⟨r, hr, rfl⟩ := Option.map_eq_some_iff.1 hr'
    rw [if_pos rfl]
    exact ⟨r, hr, rfl, rfl, rfl, fun hret => ⟨hret, id⟩⟩

theorem keeps_receivePost (c : String) : Keeps m (m.receivePost c).2 none [] := by
  unfold Memory.receivePost
  dsimp only
  split
  · split <;> exact .of_eq rfl rfl
  · exact .of_eq rfl rfl

/-! ### What an act changes -/

/-- Either a lease is granted, or the hub makes other moves and the connection touches one lease at
most: that whose listener runs or that which comes back. As long as its subscription is active its
listener stays as it is. -/
inductive Changes (x : Loopback) (a : Act) (y : Loopback) : Prop where
  | grants {s rest l} : a = .serve → x.hub.stack = .subscribing s :: rest →
      x.memory.subscribe (x.hub.sub s).key s = .ok (l, y.memory) →
      x.hub.move? (.granted l) = some y.hub → Changes x a y
  | keeps {ms touched} : x.hub.run? ms = some y.hub → (∀ m ∈ ms, m.isGrant = false) →
      Keeps x.memory y.memory touched a.published →
      (∀ {l}, touched = some l → a = .listen l ∨ y.memory = x.memory.unsubscribe l) →
      (∀ {l r r'}, touched = some l → x.memory.listeners[l]? = some r →
        y.memory.listeners[l]? = some r' → r' = r ∨ (y.hub.sub r.sub).isActive = false) →
      Changes x a y

/-- The hub makes one move, and no listener is touched. -/
theorem Changes.aside {n : Move} (hh : x.hub.move? n = some h) (hn : n.isGrant = false)
    (hm : Keeps x.memory m none a.published) : Changes x a ⟨h, m⟩ :=
  .keeps (Hub.run?_singleton hh) (fun _ hk => List.mem_singleton.1 hk ▸ hn) hm
    (fun hk => by cases hk) fun hk => by cases hk

/-- The hub has no part in it. -/
theorem Changes.still (hm : Keeps x.memory m none a.published) :
    Changes x a { x with memory := m } :=
  .keeps (show x.hub.run? [] = some x.hub from rfl) (fun _ hk => absurd hk List.not_mem_nil) hm
    (fun hk => by cases hk) fun hk => by cases hk

theorem Linked.stopped (hx : Linked x) (hr : x.memory.listeners[l]? = some r) (hs : r.stopped) :
    (x.hub.sub r.sub).isActive = false := by
  rw [← Bool.not_eq_true]
  intro ha
  exact absurd (((hx.listens hr).live ha).2.1.symm.trans hs) Bool.false_ne_true

/-- A listener runs and does not hand anything over. One that stops belongs to a subscription that
is not active. -/
theorem Linked.changes_unheard (hx : Linked x) (hr : x.memory.listeners[l]? = some r)
    (hn : ∀ e, (x.memory.listen l).1.result ≠ .event e) :
    Changes x (.listen l) { x with memory := (x.memory.listen l).2 } := by
  obtain ⟨log, hlog⟩ := hx.log
  have hruns := hx.runs hlog hr
  generalize x.memory.listen l = p at hn hruns
  have same : ∀ {m}, Keeps x.memory m (some l) [] → (∀ r', m.listeners[l]? = some r' →
      r' = r ∨ (x.hub.sub r.sub).isActive = false) → Changes x (.listen l) { x with memory := m } :=
    fun hm hl => .keeps (show x.hub.run? [] = some x.hub from rfl)
      (fun _ hk => absurd hk List.not_mem_nil) hm (fun hk => by cases hk; exact .inl rfl)
      fun hk hr' hr'' => by cases hk; cases hr.symm.trans hr'; exact hl _ hr''
  cases hruns with
  | ended _ => exact .still (.of_eq rfl rfl)
  | stops _ hst =>
    exact same (keeps_retire hr (hx.listens hr).receiver) fun _ _ => .inr (hx.stopped hr hst)
  | waits _ _ _ _ =>
    exact same (keeps_moved hlog) fun r' hr' => .inl (Option.some.inj (hr'.symm.trans hr))
  | hears _ _ _ _ => exact absurd rfl (hn _)

/-- The connection holds on to its bus, so no listener ever finds it closed. -/
theorem Linked.not_closed (hx : Linked x) (hr : x.memory.listeners[l]? = some r) :
    (x.memory.listen l).1.result ≠ .closed := by
  obtain ⟨log, hlog⟩ := hx.log
  have hruns := hx.runs hlog hr
  generalize x.memory.listen l = p at hruns
  intro hc
  cases hruns <;> cases hc

/-- A listener hands over an event of its key, after which its subscription is not active. -/
theorem Linked.changes_hears (hx : Linked x) (hr : x.memory.listeners[l]? = some r) {e : Envelope}
    (he : (x.memory.listen l).1.result = .event e) (hm : x.hub.move? (.deliver r.sub e) = some h) :
    Changes x (.listen l) ⟨h, (x.memory.listen l).2⟩ := by
  obtain ⟨log, hlog⟩ := hx.log
  have hruns := hx.runs hlog hr
  generalize x.memory.listen l = p at he hruns
  cases hruns with
  | ended _ | stops _ _ | waits _ _ _ _ => cases he
  | hears _ _ _ hf =>
    cases he
    have hls := hx.listens hr
    have hkey : e.key = (x.hub.sub r.sub).key := by
      rw [← hls.key]
      simpa using List.find?_some hf
    refine .keeps (Hub.run?_singleton hm) (fun _ hk => List.mem_singleton.1 hk ▸ rfl)
      (keeps_retire hr hls.receiver) (fun hk => by cases hk; exact .inl rfl) fun hk hr' _ => .inr ?_
    cases hk
    cases hr.symm.trans hr'
    rw [Hub.deliver_of_move? hm]
    exact Hub.inactive_deliver (hx.hub.granted_lt hls.granted) hkey

/-- A lease that comes back belongs to a subscription that is not active. -/
theorem Linked.changes_unsubscribed {rest : List Frame} (hx : Linked x)
    (hst : x.hub.stack = .unsubscribing l :: rest) (hh : x.hub.move? .unsubscribed = some h) :
    Changes x .serve ⟨h, x.memory.unsubscribe l⟩ := by
  refine .keeps (Hub.run?_singleton hh) (fun _ hk => List.mem_singleton.1 hk ▸ rfl)
    keeps_unsubscribe (fun hk => by cases hk; exact .inr rfl) fun hk hr _ => .inr ?_
  cases hk
  obtain ⟨s, hs, hin⟩ := hx.hub.inactive_of_unsubscribing (by rw [hst]; exact List.mem_cons_self)
  obtain ⟨r', hr', rfl⟩ := hx.leases hs
  cases hr.symm.trans hr'
  rw [← Bool.not_eq_true]
  intro ha
  have hlater : Hub.Later x.hub h := Hub.Later.refl.move hh
  exact absurd (hin.symm.trans (hlater.active_before hx.hub (hx.hub.granted_lt hs) ha))
    Bool.false_ne_true

theorem live_lt (hx : Linked x) (hs : s ∈ x.memory.live) : s < x.hub.subs.length := by
  obtain ⟨l, r, hl, -, rfl⟩ := mem_live.1 hs
  exact hx.hub.granted_lt (hx.listens hl).granted

theorem Linked.changes (hx : Linked x) (ha : Acted x a y) : Changes x a y := by
  cases ha with
  | @move m' h' ho hh =>
    exact .aside hh (by cases m' <;> first | rfl | cases ho) (.of_eq rfl rfl)
  | granted hst hm hh => exact .grants rfl hst hm hh
  | declined hst he hh => exact .aside hh rfl (.of_eq rfl rfl)
  | unsubscribed hst hh => exact hx.changes_unsubscribed hst hh
  | @received c h' hh => exact .aside hh rfl (keeps_receivePost c)
  | unheard hr hn =>
    refine hx.changes_unheard hr fun e he => ?_
    rcases hn with hn | hn <;> rw [hn] at he <;> cases he
  | hears hr he hm => exact hx.changes_hears hr he hm
  | closed hr hc hm => exact absurd hc (hx.not_closed hr)
  | published => exact .still (keeps_publish _)
  | @disconnected e hb =>
    refine .keeps (Hub.run_failAll hb e fun s hs => live_lt hx hs) ?_ (.of_eq rfl rfl)
      (fun hk => by cases hk) fun hk => by cases hk
    intro m hm
    obtain ⟨s, -, rfl⟩ := List.mem_map.1 hm
    rfl
  | reconnected => exact .still (.of_eq rfl rfl)
  | @arranged a => exact .still (.of_eq (by cases a <;> rfl) (by cases a <;> rfl))

/-! ### The agreement -/

/-- A listener there is was there before, and goes on as it was unless it is the one touched. -/
theorem Keeps.before {m' : Memory} {touched : Option LeaseId} {added : List Envelope} {r' : Listener}
    (hm : Keeps m m' touched added) (hsent : m.bus.sent ≤ m'.bus.sent)
    (hr' : m'.listeners[l]? = some r') : ∃ r, m.listeners[l]? = some r ∧
      r'.receiver = r.receiver ∧ r'.key = r.key ∧ r'.sub = r.sub ∧
      (r'.retired = false → r.retired = false ∧ (Reads m l → Reads m' l)) ∧
      (r' = r ∨ touched = some l) := by
  by_cases hk : touched = some l
  · obtain ⟨r, hr, hrec, hkey, hsub, hret⟩ := hm.touched hk hr'
    exact ⟨r, hr, hrec, hkey, hsub, hret, .inr hk⟩
  · obtain ⟨hr, hn⟩ := hm.other hk
    refine ⟨r', hr ▸ hr', rfl, rfl, rfl, fun hret => ⟨hret, fun ⟨n, hn', hle⟩ => ?_⟩, .inl rfl⟩
    exact ⟨n, hn.trans hn', Nat.le_trans hle hsent⟩

/-- The agreement lasts while no lease is granted. -/
theorem Linked.keep {touched : Option LeaseId} {added : List Envelope} (hx : Linked x)
    (hrun : x.hub.run? ms = some y.hub) (hms : ∀ m ∈ ms, m.isGrant = false)
    (hm : Keeps x.memory y.memory touched added)
    (hl : ∀ {l r r'}, touched = some l → x.memory.listeners[l]? = some r →
      y.memory.listeners[l]? = some r' → r' = r ∨ (y.hub.sub r.sub).isActive = false) :
    Linked y := by
  have hlater := Hub.Later.of_run? hrun
  have hg := Hub.granted_run hx.hub hrun hms
  obtain ⟨log, hlog⟩ := hx.log
  have hsent : x.memory.bus.sent ≤ y.memory.bus.sent := by
    rw [hlog.sent, (hm.log hlog).sent]
    split
    · exact Nat.le_refl _
    · rw [List.length_append]
      exact Nat.le_add_right _ _
  exact {
    hub := hx.hub.later hlater
    log := ⟨_, hm.log hlog⟩
    handles := hm.handles.trans hx.handles
    receivers := by rw [hm.receivers, hm.length, hx.receivers]
    listens := fun {l r'} hr' => by
      obtain ⟨r, hr, hrec, hkey, hsub, hret, hsame⟩ := hm.before hsent hr'
      have hls := hx.listens hr
      have hlt := hx.hub.granted_lt hls.granted
      obtain ⟨-, -, hkey'⟩ := hlater.sub_fixed hx.hub hlt
      exact {
        receiver := hrec.trans hls.receiver
        key := by rw [hsub, hkey, hls.key]; exact hkey'.symm
        granted := by rw [hsub]; exact (hg r.sub) ▸ hls.granted
        live := fun ha => by
          rw [hsub] at ha
          rcases hsame.imp id fun hk => hl hk hr hr' with rfl | rfl | hin
          · exact hls.live (hlater.active_before hx.hub hlt ha)
          · exact hls.live (hlater.active_before hx.hub hlt ha)
          · exact absurd (hin.symm.trans ha) Bool.false_ne_true
        reads := fun hn => (hret hn).2 (hls.reads (hret hn).1) }
    leases := fun {s l} hs => by
      rw [show Hub.granted y.hub s = _ from hg s] at hs
      obtain ⟨r, hr, rfl⟩ := hx.leases hs
      have hlt : l < y.memory.listeners.length := by
        rw [hm.length]
        exact (List.getElem?_eq_some_iff.1 hr).1
      obtain ⟨r₀, hr₀, -, -, hsub, -⟩ := hm.before hsent (List.getElem?_eq_getElem hlt)
      cases hr.symm.trans hr₀
      exact ⟨_, List.getElem?_eq_getElem hlt, hsub⟩ }

/-- A listener goes on as it was when another is made. -/
theorem Listens.beside {r : Listener} {k : LeaseId} (hx : Linked x) (hls : Listens x k r)
    (hk : k < x.memory.listeners.length) (hlater : Hub.Later x.hub h)
    (hg : ∀ t, ∀ l ∈ x.hub.granted t, l ∈ h.granted t) {m : Memory}
    (hm : m.bus = x.memory.bus.subscribe) : Listens ⟨h, m⟩ k r := by
  have hlt := hx.hub.granted_lt hls.granted
  obtain ⟨-, -, hkey⟩ := hlater.sub_fixed hx.hub hlt
  exact {
    receiver := hls.receiver
    key := hls.key.trans hkey.symm
    granted := hg _ _ hls.granted
    live := fun ha => hls.live (hlater.active_before hx.hub hlt ha)
    reads := fun hn => by
      obtain ⟨n, hn', hle⟩ := hls.reads hn
      refine ⟨n, ?_, by rw [hm]; exact hle⟩
      rw [hm, Bus.subscribe, List.getElem?_append_left (by rw [hx.receivers]; exact hk)]
      exact hn' }

/-- A new listener reads what is sent from now on. -/
theorem listens_new (hx : Linked x) (hs : s < x.hub.subs.length) (hlater : Hub.Later x.hub h)
    (hg : x.memory.listeners.length ∈ h.granted s) {m : Memory}
    (hm : m.bus = x.memory.bus.subscribe) :
    Listens ⟨h, m⟩ x.memory.listeners.length
      { key := (x.hub.sub s).key, sub := s, receiver := x.memory.bus.receivers.length } where
  receiver := hx.receivers
  key := (hlater.sub_fixed hx.hub hs).2.2.symm
  granted := hg
  live _ := ⟨rfl, rfl, rfl⟩
  reads _ := by
    refine ⟨x.memory.bus.sent, ?_, by rw [hm]; exact Nat.le_refl _⟩
    rw [hm, ← hx.receivers]
    exact List.getElem?_concat_length

/-- A lease is granted, and a listener for it made. -/
theorem Linked.grant {rest : List Frame} (hx : Linked x)
    (hst : x.hub.stack = .subscribing s :: rest)
    (hm : x.memory.subscribe (x.hub.sub s).key s = .ok (l, m))
    (hh : x.hub.move? (.granted l) = some h) : Linked ⟨h, m⟩ := by
  have hlater : Hub.Later x.hub h := Hub.Later.refl.move hh
  have hg : ∀ t, h.granted t = (if s = t then [l] else []) ++ x.hub.granted t := by
    intro t
    rw [Hub.granted_move hx.hub (Hub.moved_of_move? hh), Hub.granting, hst]
    by_cases hst : s = t <;> simp [Happening.granted?, hst]
  obtain ⟨rfl, rfl⟩ := subscribe_eq hm
  obtain ⟨log, hlog⟩ := hx.log
  exact {
    hub := hx.hub.later hlater
    log := ⟨log, hlog.sent, hlog.kept⟩
    handles := hx.handles
    receivers := by simp [Bus.subscribe, hx.receivers]
    listens := fun {k r} hr => by
      rcases Nat.lt_or_ge k x.memory.listeners.length with hk | hk
      · rw [List.getElem?_append_left hk] at hr
        refine (hx.listens hr).beside hx hk hlater (fun t l hl => ?_) rfl
        rw [hg]
        exact List.mem_append_right _ hl
      · rw [List.getElem?_append_right hk, List.getElem?_singleton] at hr
        split at hr
        · next hz =>
          cases hr
          obtain rfl : k = x.memory.listeners.length :=
            Nat.le_antisymm (Nat.sub_eq_zero_iff_le.1 hz) hk
          refine listens_new hx (hx.hub.wired.sub_lt hst rfl) hlater ?_ rfl
          rw [hg, if_pos rfl]
          exact List.mem_append_left _ List.mem_cons_self
        · cases hr
    leases := fun {t k} ht => by
      rw [hg] at ht
      rcases List.mem_append.1 ht with hnew | hold
      · split at hnew
        · next hts =>
          subst hts
          cases List.mem_singleton.1 hnew
          exact ⟨_, List.getElem?_concat_length, rfl⟩
        · cases hnew
      · obtain ⟨r, hr, hsub⟩ := hx.leases hold
        have hk := (List.getElem?_eq_some_iff.1 hr).1
        exact ⟨r, by rw [List.getElem?_append_left hk]; exact hr, hsub⟩ }

/-- The hub and its connection agree after every act. -/
theorem Linked.act (hx : Linked x) (ha : Acted x a y) : Linked y := by
  cases hx.changes ha with
  | grants _ hst hm hh => exact hx.grant hst hm hh
  | keeps hrun hms hm _ hl => exact hx.keep hrun hms hm hl

theorem linked_init {settings : Settings} {bus : Bus Envelope} (hb : Bus.new? c = some bus) :
    Linked { hub := { settings }, memory := { bus } } := by
  obtain ⟨hlog, -, hh, hr⟩ := Bus.holds_new hb
  exact {
    hub := ⟨settings, .refl⟩
    log := ⟨[], hlog⟩
    handles := hh
    receivers := by rw [hr]; rfl
    listens := fun hr => by cases hr
    leases := fun hs => by cases hs }

/-- What every act keeps, a run keeps. -/
theorem Linked.run_keeps {P : Loopback → Prop}
    (act : ∀ {y z a}, Linked y → Acted y a z → P y → P z) (hx : Linked x)
    (hrun : x.run? as = some y) (hp : P x) : P y := by
  induction as generalizing x with
  | nil => cases hrun; exact hp
  | cons a as ih =>
    obtain ⟨z, ha, hrun⟩ := Option.bind_eq_some_iff.1 hrun
    have ha := acted_of_act? ha
    exact ih (hx.act ha) hrun (act hx ha hp)

theorem Linked.run (hx : Linked x) (hrun : x.run? as = some y) : Linked y :=
  hx.run_keeps (fun hy ha _ => hy.act ha) hrun hx

/-- Whatever happens, the hub changes by its moves. -/
theorem later_act (hx : Linked x) (ha : Acted x a y) : Hub.Later x.hub y.hub := by
  cases hx.changes ha with
  | grants _ _ _ hm => exact Hub.Later.refl.move hm
  | keeps hrun _ _ _ _ => exact .of_run? hrun

theorem Reachable.linked (hx : Reachable c x) : Linked x := by
  obtain ⟨settings, bus, as, hb, hrun⟩ := hx
  exact (linked_init hb).run hrun

theorem run?_append (x : Loopback) (as bs : List Act) :
    x.run? (as ++ bs) = (x.run? as).bind (·.run? bs) := by
  induction as generalizing x with
  | nil => rfl
  | cons a as ih =>
    rw [List.cons_append, run?, run?, Option.bind_assoc]
    congr 1
    funext y
    exact ih y

theorem Reachable.run (hx : Reachable c x) (hrun : x.run? as = some y) : Reachable c y := by
  obtain ⟨settings, bus, bs, hb, hbs⟩ := hx
  refine ⟨settings, bus, bs ++ as, hb, ?_⟩
  rw [run?_append, hbs]
  exact hrun

theorem Reachable.act (hx : Reachable c x) (ha : x.act? a = some y) : Reachable c y :=
  hx.run (show x.run? [a] = some y by rw [run?, ha]; rfl)

/-- A run that is carried out shows where it leads. -/
theorem Reachable.exists_of_run {b : Bus Envelope} (hb : Bus.new? c = some b) (as : List Act)
    (p : Loopback → Prop) [DecidablePred p]
    (hr : (run? { hub := {}, memory := { bus := b } } as).any (p ·)) :
    ∃ x, Reachable c x ∧ p x := by
  obtain ⟨x, hrun, hp⟩ := Hub.exists_of_any hr
  exact ⟨x, ⟨{}, b, as, hb, hrun⟩, of_decide_eq_true hp⟩

end
end Aftermath.Loopback
