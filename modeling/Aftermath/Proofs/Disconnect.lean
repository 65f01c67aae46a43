import Aftermath.Proofs.Loopback

/-! What a connection that breaks does to the sessions. It decides each one that waits for it, once,
however many subscriptions the session has. While the connection is down no undecided session has an
active subscription on it. -/

namespace Aftermath

def Session.lose (x : Session) (e : NetworkError) : Session :=
  { x with claim := some (.lost e), reports := x.reports ++ [.lost e] }

namespace Hub

/-- A session is undecided, and one of these subscriptions was made for it and is active. -/
def exposes (h : Hub) (l : List SubId) (i : SessionId) : Bool :=
  !(h.session i).isSettled && l.any fun s => (h.sub s).home == i && (h.sub s).isActive

section
variable {h h' : Hub} {s : SubId} {i j : SessionId} {l : List SubId} {e : NetworkError}

theorem exposes_iff : h.exposes l i ↔ (h.session i).isSettled = false ∧
    ∃ s, s ∈ l ∧ (h.sub s).home = i ∧ (h.sub s).isActive := by
  unfold exposes
  rw [Bool.and_eq_true_iff, Bool.not_eq_true', List.any_eq_true]
  simp only [Bool.and_eq_true_iff, beq_iff_eq]

theorem exposes_cons : h.exposes (s :: l) i = (h.exposes [s] i || h.exposes l i) := by
  unfold exposes
  rw [List.any_cons, List.any_cons, List.any_nil, Bool.or_false, Bool.and_or_distrib_left]

theorem exposes_eq (hs : h'.session i = h.session i) (hu : h'.subs = h.subs) :
    h'.exposes l i = h.exposes l i := by
  unfold exposes
  rw [hs]
  simp only [sub_eq hu]

theorem not_exposes (hn : (h.session i).isSettled) : h.exposes l i = false := by
  unfold exposes
  rw [hn]
  rfl

theorem exposes_single : h.exposes [s] i ↔
    (h.session i).isSettled = false ∧ (h.sub s).home = i ∧ (h.sub s).isActive := by
  rw [exposes_iff]
  constructor
  · rintro ⟨hn, t, ht, hi⟩
    cases List.mem_singleton.1 ht
    exact ⟨hn, hi⟩
  · rintro ⟨hn, hi⟩
    exact ⟨hn, s, List.mem_singleton.2 rfl, hi⟩

theorem exposes_cons_other (hi : i ≠ (h.sub s).home) : h.exposes (s :: l) i = h.exposes l i := by
  have hnot : h.exposes [s] i = false := by
    rw [← Bool.not_eq_true, exposes_single]
    rintro ⟨-, hh, -⟩
    exact hi hh.symm
  rw [exposes_cons, hnot, Bool.false_or]

/-! ### Failing subscriptions -/

theorem session_claimed_other (hi : i < h.sessions.length) (hj : j ≠ i) (c : Claim)
    (x : Happening) (r : Report) :
    (((h.settle i c).note x).report i r).session j = h.session j := by
  have hi' : i < ((h.settle i c).note x).sessions.length := by simpa [settle] using hi
  calc (((h.settle i c).note x).report i r).session j
    _ = ((h.settle i c).note x).session j := (session_onSession _ _ _ hi' _).trans (if_neg hj)
    _ = h.session j := (session_onSession _ _ _ hi _).trans (if_neg hj)

/-- A failure decides the session of a subscription, or it comes to nothing. -/
inductive Fails (h : Hub) (s : SubId) (e : NetworkError) (h' : Hub) : Prop where
  | decides : h.exposes [s] (h.sub s).home → h'.answer = .bool true →
      (∀ i, h'.session i = if i = (h.sub s).home then (h.session i).lose e else h.session i) →
      Fails h s e h'
  | ignored : h.exposes [s] (h.sub s).home = false → h'.answer = .bool false →
      (∀ i, h'.session i = h.session i) → Fails h s e h'

theorem fails (hi : (h.sub s).home < h.sessions.length) (e : NetworkError) :
    Fails h s e (h.fail s e) := by
  unfold fail; dsimp only
  split
  · next hc =>
    obtain ⟨ha, hn⟩ := Bool.and_eq_true_iff.1 hc
    rw [Bool.not_eq_true'] at hn
    refine .decides (exposes_single.2 ⟨hn, rfl, ha⟩) rfl fun i => ?_
    have hc : (h.session (h.sub s).home).claim = none := by simpa [Session.isSettled] using hn
    by_cases hij : i = (h.sub s).home
    · rw [if_pos hij, hij]
      exact session_claimed hi (.lost e) hc (.lost s (h.sub s).key e) (.lost e)
    · rw [if_neg hij]
      exact session_claimed_other hi hij _ _ _
  · next hc =>
    refine .ignored ?_ rfl fun i => rfl
    rw [← Bool.not_eq_true, exposes_single]
    rintro ⟨hn, -, ha⟩
    exact hc (Bool.and_eq_true_iff.2 ⟨ha, by rw [hn]; rfl⟩)

theorem sessions_length_fail : (h.fail s e).sessions.length = h.sessions.length := by
  unfold fail; dsimp only
  split
  · simp [settle, report]
  · rfl

/-! ### Failing them all -/

/-- A failure that decides adds the session of its subscription to those that the rest exposes, for the
rest finds it decided. -/
theorem exposes_of_decides {k : Hub} (hsubs : k.subs = h.subs) (hx : h.exposes [s] (h.sub s).home)
    (hs : ∀ i, k.session i = if i = (h.sub s).home then (h.session i).lose e else h.session i) :
    h.exposes (s :: l) (h.sub s).home = true ∧ k.exposes l (h.sub s).home = false ∧
      ∀ i, i ≠ (h.sub s).home → h.exposes (s :: l) i = k.exposes l i := by
  refine ⟨?_, not_exposes ?_, fun i hi => ?_⟩
  · rw [exposes_cons, hx, Bool.true_or]
  · rw [hs, if_pos rfl]
    rfl
  · rw [exposes_cons_other hi]
    exact (exposes_eq (by rw [hs, if_neg hi]) hsubs).symm

/-- A failure that comes to nothing exposes nothing. -/
theorem exposes_of_ignored {k : Hub} (hsubs : k.subs = h.subs)
    (hx : h.exposes [s] (h.sub s).home = false) (hs : ∀ i, k.session i = h.session i) (i : SessionId) :
    h.exposes (s :: l) i = k.exposes l i := by
  rw [exposes_eq (hs i) hsubs]
  by_cases hi : i = (h.sub s).home
  · rw [exposes_cons, hi, hx, Bool.false_or]
  · exact exposes_cons_other hi

/-- Failing subscriptions decides each session that they expose, and counts it once. -/
theorem failAll_decides (hl : ∀ s, s ∈ l → (h.sub s).home < h.sessions.length) :
    (h.failAll e l).1 = (List.range h.sessions.length).countP (h.exposes l) ∧
    ∀ i, (h.failAll e l).2.session i =
      if h.exposes l i then (h.session i).lose e else h.session i := by
  induction l generalizing h with
  | nil =>
    have hnil : ∀ i, h.exposes [] i = false := fun i => by
      unfold exposes
      rw [List.any_nil, Bool.and_false]
    refine ⟨?_, fun i => by rw [hnil]; rfl⟩
    rw [List.countP_congr (fun i _ => by rw [hnil i]), List.countP_false]
    rfl
  | cons s l ih =>
    have hi := hl s List.mem_cons_self
    have hsubs : (h.fail s e).subs = h.subs := subs_fail h s e
    obtain ⟨hcount, hsession⟩ := ih (h := h.fail s e) fun t ht => by
      rw [sub_eq hsubs, sessions_length_fail]
      exact hl t (List.mem_cons_of_mem _ ht)
    rw [sessions_length_fail] at hcount
    unfold failAll
    dsimp only
    rw [hcount]
    cases fails hi e with
    | decides hx ha hs =>
      obtain ⟨hhead, hself, hrest⟩ := exposes_of_decides (l := l) hsubs hx hs
      refine ⟨?_, fun i => ?_⟩
      · rw [if_pos ha]
        exact (countP_range_of_one hi hhead hself hrest).symm
      · rw [hsession, hs]
        by_cases hij : i = (h.sub s).home
        · rw [if_pos hij, hij, hself, hhead]
          rfl
        · rw [if_neg hij, hrest i hij]
    | ignored hx ha hs =>
      have hsame := exposes_of_ignored (l := l) hsubs hx hs
      refine ⟨?_, fun i => ?_⟩
      · rw [if_neg (by rw [ha]; simp)]
        exact List.countP_congr fun i _ => by rw [hsame i]
      · rw [hsession, hs, hsame]

end
end Hub

namespace Loopback

def isOn (x : Loopback) (s : SubId) : Bool :=
  (x.hub.sub s).isActive && !(x.hub.granted s).isEmpty

/-- A session waits for the connection: it is undecided, and one of the subscriptions that were made
for it is active on the connection. -/
def waits (x : Loopback) (i : SessionId) : Bool :=
  !(x.hub.session i).isSettled &&
    (x.hub.session i).members.any fun s => (x.hub.sub s).home == i && x.isOn s

section
variable {x y : Loopback} {i : SessionId} {s : SubId} {a : Act} {c : Nat}
variable {ms : List Move} {as : List Act}

theorem isOn_iff : x.isOn s ↔ (x.hub.sub s).isActive ∧ x.hub.granted s ≠ [] := by
  unfold isOn
  rw [Bool.and_eq_true_iff, Bool.not_eq_true', List.isEmpty_eq_false_iff]

/-- A subscription is a member of the session it was made for. -/
theorem Linked.waits_iff (hx : Linked x) : x.waits i ↔
    (x.hub.session i).isSettled = false ∧ ∃ s, (x.hub.sub s).home = i ∧ x.isOn s := by
  unfold waits
  rw [Bool.and_eq_true_iff, Bool.not_eq_true', List.any_eq_true]
  constructor
  · rintro ⟨hn, s, -, hs⟩
    rw [Bool.and_eq_true_iff, beq_iff_eq] at hs
    exact ⟨hn, s, hs⟩
  · rintro ⟨hn, s, rfl, hs⟩
    obtain ⟨l, hl⟩ := List.exists_mem_of_ne_nil _ (isOn_iff.1 hs).2
    refine ⟨hn, s, hx.hub.wired.own s (hx.hub.granted_lt hl), ?_⟩
    rw [hs, beq_self_eq_true]
    rfl

/-- The active subscriptions that are live on the connection are those it has granted. -/
theorem Linked.live_iff (hx : Linked x) (ha : (x.hub.sub s).isActive) :
    s ∈ x.memory.live ↔ x.isOn s := by
  rw [isOn_iff]
  constructor
  · intro hs
    obtain ⟨l, r, hl, -, rfl⟩ := mem_live.1 hs
    exact ⟨ha, List.ne_nil_of_mem (hx.listens hl).granted⟩
  · rintro ⟨-, hg⟩
    obtain ⟨l, hl⟩ := List.exists_mem_of_ne_nil _ hg
    obtain ⟨r, hr, rfl⟩ := hx.leases hl
    exact mem_live.2 ⟨l, r, hr, ((hx.listens hr).live ha).1, rfl⟩

theorem Linked.waits_eq (hx : Linked x) (i : SessionId) :
    x.waits i = x.hub.exposes x.memory.live i := by
  rw [Bool.eq_iff_iff, hx.waits_iff, Hub.exposes_iff]
  constructor
  · rintro ⟨hn, s, hi, hs⟩
    have ha := (isOn_iff.1 hs).1
    exact ⟨hn, s, (hx.live_iff ha).2 hs, hi, ha⟩
  · rintro ⟨hn, s, hs, hi, ha⟩
    exact ⟨hn, s, hi, (hx.live_iff ha).1 hs⟩

/-- A connection that breaks decides each session that waits for it. -/
theorem Linked.disconnect_decides (hx : Linked x) (e : NetworkError) :
    (x.disconnect e).1 = (List.range x.hub.sessions.length).countP x.waits ∧
    ∀ i, (x.disconnect e).2.hub.session i =
      if x.waits i then (x.hub.session i).lose e else x.hub.session i := by
  have hw : x.waits = x.hub.exposes x.memory.live := funext hx.waits_eq
  rw [hw]
  exact Hub.failAll_decides fun s hs => hx.hub.wired.homes s (live_lt hx hs)

/-- A session that waits after moves by which no lease is granted has waited before. -/
theorem waits_before (hx : Linked x) (hy : Linked y) (hrun : x.hub.run? ms = some y.hub)
    (hms : ∀ m ∈ ms, m.isGrant = false) (hw : y.waits i) : x.waits i := by
  have hlater := Hub.Later.of_run? hrun
  obtain ⟨hn, s, hi, hs⟩ := hy.waits_iff.1 hw
  obtain ⟨ha, hg⟩ := isOn_iff.1 hs
  rw [Hub.granted_run hx.hub hrun hms] at hg
  obtain ⟨l, hl⟩ := List.exists_mem_of_ne_nil _ hg
  have hlt := hx.hub.granted_lt hl
  refine hx.waits_iff.2 ⟨?_, s, ?_, isOn_iff.2 ⟨hlater.active_before hx.hub hlt ha, hg⟩⟩
  · have hn : (y.hub.session i).claim = none := by simpa [Session.isSettled] using hn
    rw [Session.isSettled, hlater.claim_none hx.hub hn]
    rfl
  · rw [← (hlater.sub_fixed hx.hub hlt).2.1]
    exact hi

/-! ### While the connection is down -/

theorem connected_of_subscribe {m m' : Memory} {key : Key} {l : LeaseId}
    (hm : m.subscribe key s = .ok (l, m')) : m'.connected = true := by
  unfold Memory.subscribe at hm
  split at hm
  · cases hm
  · split at hm
    · next hc => cases hm; exact hc
    · cases hm

theorem connected_retire (m : Memory) (l : LeaseId) :
    (m.retire l).connected = m.connected := by
  unfold Memory.retire
  split <;> rfl

theorem connected_listen (m : Memory) (l : LeaseId) :
    (m.listen l).2.connected = m.connected := by
  unfold Memory.listen
  split
  · rfl
  · split
    · rfl
    · split
      · exact connected_retire _ _
      · dsimp only
        split
        · rfl
        · exact connected_retire _ _

theorem connected_receivePost (m : Memory) (c : String) :
    (m.receivePost c).2.connected = m.connected := by
  unfold Memory.receivePost
  dsimp only
  split
  · next hc => split <;> exact hc.symm ▸ rfl
  · rfl

/-- A connection that stands or not does so as before, or it stands now, or it has just broken. -/
theorem connected_cases (ha : Acted x a y) : y.memory.connected = x.memory.connected ∨
    y.memory.connected = true ∨ ∃ e, y = (x.disconnect e).2 := by
  cases ha with
  | move _ _ | declined _ _ _ | unsubscribed _ _ | published => exact .inl rfl
  | granted _ hm _ => exact .inr (.inl (connected_of_subscribe hm))
  | received _ => exact .inl (connected_receivePost _ _)
  | unheard _ _ | hears _ _ _ | closed _ _ _ => exact .inl (connected_listen _ _)
  | disconnected _ => exact .inr (.inr ⟨_, rfl⟩)
  | reconnected => exact .inr (.inl rfl)
  | @arranged a => exact .inl (by cases a <;> rfl)

/-- While the connection is down no session waits for it. -/
def Severed (x : Loopback) : Prop := x.memory.connected = false → ∀ i, x.waits i = false

theorem Severed.act (hx : Linked x) (hs : Severed x) (ha : Acted x a y) : Severed y := by
  intro hc i
  cases hx.changes ha with
  | grants _ _ hm _ => exact absurd (hc.symm.trans (connected_of_subscribe hm)) Bool.false_ne_true
  | keeps hrun hms _ _ _ =>
    rw [← Bool.not_eq_true]
    intro hw
    have hwx := waits_before hx (hx.act ha) hrun hms hw
    rcases connected_cases ha with hsame | hon | ⟨e, rfl⟩
    · rw [hs (hsame.symm.trans hc) i] at hwx
      cases hwx
    · exact absurd (hc.symm.trans hon) Bool.false_ne_true
    · -- Whoever has waited when the connection broke is decided now.
      have hsession := (hx.disconnect_decides e).2 i
      rw [if_pos hwx] at hsession
      have hsettled : ((x.disconnect e).2.hub.session i).isSettled := by
        rw [hsession]
        rfl
      rw [waits, hsettled] at hw
      cases hw

theorem Reachable.severed (hx : Reachable c x) : Severed x := by
  obtain ⟨settings, bus, as, hb, hrun⟩ := hx
  exact (linked_init hb).run_keeps (fun hy ha hs => hs.act hy ha) hrun fun hc => by cases hc

/-- A connection that breaks decides every waiting session exactly once. It tells how many sessions
were undecided and had an active subscription on it; just these are decided by the failure, with one
report each, and no subscription changes. While the connection is down nobody waits for it. -/
theorem disconnect_decides_waiting (hx : Reachable c x) (e : NetworkError) :
    (x.disconnect e).1 = (List.range x.hub.sessions.length).countP x.waits ∧
    (∀ i, (x.disconnect e).2.hub.session i =
      if x.waits i then (x.hub.session i).lose e else x.hub.session i) ∧
    (x.disconnect e).2.hub.subs = x.hub.subs ∧
    (x.memory.connected = false → ∀ i, x.waits i = false) := by
  obtain ⟨hcount, hsession⟩ := hx.linked.disconnect_decides e
  exact ⟨hcount, hsession, Hub.subs_failAll e _, hx.severed⟩

end

/-- A session with two subscriptions posts its command and waits, and another one is being
configured. -/
def oneOfTwoWaits : List Act :=
  [.move (.openSession none none), .move (.run 0), .move .step, .move (.subscribe default .event),
    .serve, .move (.subscribe default .rejection), .serve, .move .configured, .move .step,
    .move .step, .move .step, .receive "", .move .step, .move .step,
    .move (.openSession none none), .move (.run 1), .move .step]

theorem broken_connection_decides_one : ∃ x : Loopback, Reachable 1 x ∧
    (x.hub.session 0).members.length = 2 ∧ (x.disconnect Memory.down).1 = 1 ∧
    ((x.disconnect Memory.down).2.hub.session 0).reports = [.lost Memory.down] := by
  obtain ⟨x, hx, hlen, hw, hr, hcount⟩ := Reachable.exists_of_run Bus.new?_one oneOfTwoWaits
    (fun x => (x.hub.session 0).members.length = 2 ∧ x.waits 0 ∧
      (x.hub.session 0).reports = [] ∧
      (List.range x.hub.sessions.length).countP x.waits = 1) (by decide)
  obtain ⟨hn, hs, -, -⟩ := disconnect_decides_waiting hx Memory.down
  refine ⟨x, hx, hlen, hn.trans hcount, ?_⟩
  rw [hs, if_pos hw, Session.lose, hr]
  rfl

end Loopback
end Aftermath
