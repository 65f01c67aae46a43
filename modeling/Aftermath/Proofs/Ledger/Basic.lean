import Aftermath.Proofs.Sweep

/-! The books of a hub. They say of each subscription that has left `active` what it came to, and of each
release how many it says it has cancelled, in the order in which the calls return. What is not in the
books yet is on the stack. -/

namespace Aftermath.Hub

/-- A release is known by its session and by the number of frames below its own. -/
abbrev ReleaseId := SessionId × Nat

inductive Exit where
  | fired
  | expired
  /-- A delivery came too late to decide the session. -/
  | outrun
  /-- A countdown ran out too late to decide the session. -/
  | lapsed
  /-- A cancellation returned true, to the caller or to a release that counts it. -/
  | cancelled (release : Option ReleaseId)
  | declined
deriving DecidableEq, Repr

def Exit.isCancelled : Exit → Bool
  | .cancelled _ => true
  | _ => false

def Exit.release? : Exit → Option ReleaseId
  | .cancelled r => r
  | _ => none

inductive Booking where
  | left (s : SubId) (x : Exit)
  | count (r : ReleaseId) (n : Nat)
deriving DecidableEq, Repr

def Booking.exit? (s : SubId) : Booking → Option Exit
  | .left t x => if t = s then some x else none
  | .count _ _ => none

def topRelease? : List Frame → Option ReleaseId
  | .releasing i _ _ :: below => some (i, below.length)
  | _ => none

/-- What a move writes in the books: whose business returns, and with which answer. An expiry answers
nobody; it has decided its session or not. -/
def booking? (h : Hub) (m : Move) (h' : Hub) : Option Booking :=
  match h.stack, m with
  | .settlingEvent s _ :: _, _ =>
    some (.left s (if h'.answer = .bool true then .fired else .outrun))
  | .settlingTimeout s :: _, _ =>
    let home := (h.sub s).home
    some (.left s (if (h'.session home).claim = (h.session home).claim then .lapsed else .expired))
  | .reportingCancel s :: below, _ =>
    if h'.answer = .bool true then some (.left s (.cancelled (topRelease? below))) else none
  | .releasing i [] _ :: below, _ =>
    match h'.answer with
    | .count n => some (.count (i, below.length) n)
    | _ => none
  | .subscribing s :: _, .declined _ => if (h.sub s).isActive then some (.left s .declined) else none
  | _, _ => none

def ledger (h : Hub) (l : List Booking) : List Move → List Booking
  | [] => l
  | m :: ms =>
    match h.move? m with
    | none => l
    | some h' => ledger h' ((booking? h m h').toList ++ l) ms

/-- How a subscription has ended, as often as the books say so. -/
def exits (s : SubId) (l : List Booking) : List Exit := l.filterMap (·.exit? s)

/-! ### Counts -/

def Booking.counted (Q : ReleaseId → Bool) : Booking → Nat
  | .left _ _ => 0
  | .count r n => if Q r then n else 0

def Booking.isUnit (Q : ReleaseId → Bool) : Booking → Bool
  | .left _ x => x.release?.any Q
  | .count _ _ => false

def Booking.isCancel (P : SubId → Bool) : Booking → Bool
  | .left s (.cancelled none) => P s
  | _ => false

def counts (Q : ReleaseId → Bool) : List Booking → Nat
  | [] => 0
  | b :: l => b.counted Q + counts Q l

/-- How many subscriptions were cancelled by some releases. -/
def units (Q : ReleaseId → Bool) (l : List Booking) : Nat := l.countP (·.isUnit Q)

/-- How many subscriptions a release has cancelled since a count was returned under its name. -/
def since (r : ReleaseId) : List Booking → Nat
  | [] => 0
  | .count q _ :: l => if q = r then 0 else since r l
  | .left _ x :: l => (if x.release? = some r then 1 else 0) + since r l

/-- Each count is the number of subscriptions that this release has cancelled. -/
def Tallied : List Booking → Prop
  | [] => True
  | .count r n :: l => n = since r l ∧ Tallied l
  | .left _ _ :: l => Tallied l

instance Tallied.decidable : (l : List Booking) → Decidable (Tallied l)
  | [] => .isTrue trivial
  | .count r n :: l => @instDecidableAnd (n = since r l) (Tallied l) _ (Tallied.decidable l)
  | .left _ _ :: l => Tallied.decidable l

theorem exits_left (s t : SubId) (x : Exit) (l : List Booking) :
    exits s (.left t x :: l) = if s = t then x :: exits s l else exits s l := by
  by_cases hst : s = t
  · rw [if_pos hst]
    exact List.filterMap_cons_some (if_pos hst.symm)
  · rw [if_neg hst]
    exact List.filterMap_cons_none (if_neg fun he => hst he.symm)

theorem units_cons (Q : ReleaseId → Bool) (b : Booking) (l : List Booking) :
    units Q (b :: l) = units Q l + if b.isUnit Q then 1 else 0 := by
  unfold units
  rw [List.countP_cons]

/-- With true tallies, what is not yet returned is what was cancelled since. -/
theorem Tallied.counts_add_since {l : List Booking} (ht : Tallied l) (r : ReleaseId) :
    counts (· == r) l + since r l = units (· == r) l := by
  induction l with
  | nil => rfl
  | cons b l ih =>
    rw [counts, units_cons]
    cases b with
    | left s x =>
      have hsum := ih ht
      have hx : x.release?.any (· == r) = (x.release? == some r) := by
        cases x.release? <;> simp
      simp only [Booking.counted, Booking.isUnit, since, hx, beq_iff_eq]
      omega
    | count q n =>
      obtain ⟨hn, ht⟩ := ht
      have hsum := ih ht
      simp only [Booking.counted, Booking.isUnit, since, beq_iff_eq, Bool.false_eq_true, ↓reduceIte]
      split
      · next hq => subst hq; omega
      · omega

/-! ### What is on the stack -/

/-- The release that a frame is going to report a cancellation to, the frames below given. -/
def unit? (below : List Frame) : Frame → Option ReleaseId
  | .reportingCancel _ => topRelease? below
  | _ => none

def share (Q : ReleaseId → Bool) (height : Nat) : Frame → Nat
  | .releasing i _ n => if Q (i, height) then n else 0
  | _ => 0

def held (Q : ReleaseId → Bool) : List Frame → Nat
  | [] => 0
  | f :: l => share Q l.length f + held Q l

/-- Counted cancellations that have not been reported yet. -/
def coming (Q : ReleaseId → Bool) : List Frame → Nat
  | [] => 0
  | f :: l => (if (unit? l f).any Q then 1 else 0) + coming Q l

/-- The frames that are to report the end of a subscription. -/
def reports (s : SubId) (l : List Frame) : Nat := l.countP fun f => f.sub? = some s && f.report?.isSome

/-- A subscription has not left `active`; one that is not made yet has not either. -/
def remains (h : Hub) (s : SubId) : Bool := h.subs.length ≤ s || (h.sub s).isActive

/-- The ends of a subscription that are still to come, or that are under way. -/
def outstanding (h : Hub) (s : SubId) : Nat := (h.remains s).toNat + reports s h.stack

section
variable {h h' : Hub} {s t : SubId} {Q : ReleaseId → Bool} {r : ReleaseId} {f : Frame}
variable {l l' : List Frame} {b : Option Booking}

theorem share_of_report (hf : f.report?.isSome) (n : Nat) : share Q n f = 0 := by
  cases f <;> first | rfl | cases hf

theorem unit?_of_not_report (hf : f.report? = none) : unit? l f = none := by
  cases f <;> first | rfl | cases hf

theorem share_of_not_released (hf : f.released? = none) (n : Nat) : share Q n f = 0 := by
  cases f <;> first | rfl | cases hf

theorem topRelease?_lt (ht : topRelease? l = some r) : r.2 < l.length := by
  unfold topRelease? at ht
  split at ht
  · cases ht; exact Nat.lt_succ_self _
  · cases ht

/-- A release higher up than the stack is none of its own. -/
theorem held_above (hr : l.length ≤ r.2) : held (· == r) l = 0 := by
  induction l with
  | nil => rfl
  | cons f l ih =>
    have hlt : l.length < r.2 := hr
    rw [held, ih (Nat.le_of_lt hlt), Nat.add_zero]
    cases f with
    | releasing i rest n =>
      refine if_neg fun he => ?_
      rw [beq_iff_eq] at he
      subst he
      exact Nat.lt_irrefl _ hlt
    | _ => rfl

theorem coming_above (hr : l.length ≤ r.2) : coming (· == r) l = 0 := by
  induction l with
  | nil => rfl
  | cons f l ih =>
    have hlt : l.length < r.2 := hr
    rw [coming, ih (Nat.le_of_lt hlt), Nat.add_zero]
    refine if_neg fun ha => ?_
    obtain ⟨q, hq, he⟩ := exists_of_any ha
    rw [beq_iff_eq] at he
    subst he
    cases f <;> first | cases hq | exact Nat.lt_asymm hlt (topRelease?_lt hq)

/-- Where none of these releases is on the stack, nothing is held and nothing comes. -/
theorem held_of_none (hn : ∀ f ∈ l, ∀ i n, f.released? = some i → Q (i, n) = false) : held Q l = 0 := by
  induction l with
  | nil => rfl
  | cons f l ih =>
    rw [held, ih fun g hg => hn g (List.mem_cons_of_mem _ hg), Nat.add_zero]
    cases f with
    | releasing i rest n =>
      rw [share, hn _ List.mem_cons_self i _ rfl]
      rfl
    | _ => rfl

theorem coming_of_none (hn : ∀ f ∈ l, ∀ i n, f.released? = some i → Q (i, n) = false) :
    coming Q l = 0 := by
  induction l with
  | nil => rfl
  | cons f l ih =>
    rw [coming, ih fun g hg => hn g (List.mem_cons_of_mem _ hg), Nat.add_zero]
    refine if_neg fun ha => ?_
    obtain ⟨q, hq, hQ⟩ := exists_of_any ha
    have htop : topRelease? l = some q := by
      cases f <;> first | exact hq | cases hq
    unfold topRelease? at htop
    split at htop
    · cases htop
      rw [hn _ (List.mem_cons_of_mem _ List.mem_cons_self) _ _ rfl] at hQ
      cases hQ
    · cases htop

/-! ### Frames that come and go -/

/-- One stack comes from another by frames that neither report nor have counted anything, and a release
may pass over a subscription. -/
inductive Plainly (h : Hub) : List Frame → List Frame → Prop where
  | refl {a} : Plainly h a a
  | push {a b g} : Plainly h a b → g.report? = none → g.released? = none → Plainly h a (g :: b)
  | release {a b i} : Plainly h a b → Plainly h a (.releasing i (h.session i).members 0 :: b)
  | pop {a b g} : Plainly h a (g :: b) → g.report? = none → g.released? = none → Plainly h a b
  | skip {i u rest n a} : Plainly h (.releasing i (u :: rest) n :: a) (.releasing i rest n :: a)

theorem reports_cons (hf : f.report? = none) : reports s (f :: l) = reports s l :=
  List.countP_cons_of_neg (by rw [hf]; simp)

theorem reports_report (hs : f.sub? = some s) (hf : f.report?.isSome) :
    reports t (f :: l) = reports t l + if t = s then 1 else 0 := by
  rw [reports, List.countP_cons, hs, hf]
  simp only [Option.some.injEq, Bool.and_true, decide_eq_true_eq, @eq_comm _ s]
  rfl

theorem Plainly.reports (hp : Plainly h l l') : Hub.reports s l' = Hub.reports s l := by
  induction hp with
  | refl => rfl
  | push _ hf _ ih => rw [reports_cons hf, ih]
  | release _ ih => rw [reports_cons rfl, ih]
  | pop _ hf _ ih => rw [← ih, reports_cons hf]
  | skip => rfl

theorem Plainly.held (hp : Plainly h l l') : Hub.held Q l' = Hub.held Q l := by
  induction hp with
  | refl => rfl
  | push _ _ hf ih => rw [Hub.held, share_of_not_released hf, Nat.zero_add, ih]
  | release _ ih => rw [Hub.held, share, ite_self, Nat.zero_add, ih]
  | pop _ _ hf ih => rw [← ih, Hub.held, share_of_not_released hf, Nat.zero_add]
  | skip => rfl

theorem coming_cons (hf : f.report? = none) : coming Q (f :: l) = coming Q l := by
  rw [coming, unit?_of_not_report hf]
  exact Nat.zero_add _

theorem Plainly.coming (hp : Plainly h l l') : Hub.coming Q l' = Hub.coming Q l := by
  induction hp with
  | refl => rfl
  | push _ hf _ ih => rw [coming_cons hf, ih]
  | release _ ih => rw [coming_cons rfl, ih]
  | pop _ hf _ ih => rw [← ih, coming_cons hf]
  | skip => rfl

def Listed (h : Hub) : List Frame → Prop
  | [] => True
  | f :: l =>
    (∀ i rest n, f = .releasing i rest n → ∀ s ∈ rest, s ∈ (h.session i).members) ∧
    (∀ s i n, f = .reportingCancel s → topRelease? l = some (i, n) → s ∈ (h.session i).members) ∧
    Listed h l

theorem Listed.plain (hl : Listed h l) (hf : f.report? = none) (hr : f.released? = none) :
    Listed h (f :: l) := by
  refine ⟨fun i rest n he => ?_, fun s i n he => ?_, hl⟩
  · subst he; cases hr
  · subst he; cases hf

theorem Plainly.listed (hp : Plainly h l l') (hl : Listed h l) : Listed h l' := by
  induction hp with
  | refl => exact hl
  | push _ hf hr ih => exact (ih hl).plain hf hr
  | release _ ih =>
    refine ⟨fun i rest n he s hs => ?_, (fun s i n he => by cases he), ih hl⟩
    cases he
    exact hs
  | pop _ _ _ ih => exact (ih hl).2.2
  | skip =>
    obtain ⟨hm, -, hl⟩ := hl
    refine ⟨fun i rest n he s hs => ?_, (fun s i n he => by cases he), hl⟩
    cases he
    exact hm _ _ _ rfl s (List.mem_cons_of_mem _ hs)

theorem Listed.mono (hl : Listed h l)
    (hm : ∀ i, ∀ s ∈ (h.session i).members, s ∈ (h'.session i).members) : Listed h' l := by
  induction l with
  | nil => trivial
  | cons f l ih =>
    obtain ⟨hr, hc, hl⟩ := hl
    exact ⟨fun i rest n he s hs => hm i s (hr i rest n he s hs),
      fun s i n he ht => hm i s (hc s i n he ht), ih hl⟩

/-! ### What a move does to the books -/

def Parts (h h' : Hub) (s : SubId) : Prop :=
  h.remains s ∧ ∀ t, h'.remains t = if t = s then false else h.remains t

/-- What a move does: to the subscriptions that are active, to the stack and to the books. -/
inductive Reckons (h : Hub) : Option Booking → Hub → Prop where
  | still {k : Hub} : k.remains = h.remains → Plainly h h.stack k.stack → Reckons h none k
  | leaves {u g a k} : Parts h k u → g.sub? = some u → g.report?.isSome → unit? a g = none →
      Plainly h h.stack a → Plainly h (g :: a) k.stack → Reckons h none k
  | takes {u i rest n a k} : Parts h k u → h.stack = .releasing i (u :: rest) n :: a →
      Plainly h (.reportingCancel u :: .releasing i rest (n + 1) :: a) k.stack → Reckons h none k
  | returns {i n a} {k : Hub} : k.remains = h.remains → h.stack = .releasing i [] n :: a →
      k.stack = a → Reckons h (some (.count (i, a.length) n)) k
  | ends {u g x a} {k : Hub} : k.remains = h.remains → h.stack = g :: a → g.sub? = some u →
      g.report?.isSome → x.release? = unit? a g → k.stack = a → Reckons h (some (.left u x)) k
  | declines {u k} : Parts h k u → Plainly h h.stack k.stack → Reckons h (some (.left u .declined)) k

theorem Parts.remains (hp : Parts h h' s) (t : SubId) :
    (h.remains t).toNat = (h'.remains t).toNat + if t = s then 1 else 0 := by
  obtain ⟨hs, hp⟩ := hp
  rw [hp t]
  split
  · next he => subst he; rw [hs]; rfl
  · rfl

/-- An end that was still to come is in the books, or it is still to come. -/
theorem Reckons.outstanding (hr : Reckons h b h') (t : SubId) :
    h.outstanding t = (exits t b.toList).length + h'.outstanding t := by
  unfold Hub.outstanding
  cases hr with
  | still hs hp => rw [hs, hp.reports]; exact (Nat.zero_add _).symm
  | leaves hs hf hr _ hp hq =>
    have hrem := hs.remains t
    rw [hq.reports, reports_report hf hr, hp.reports]
    simp only [exits, Option.toList_none, List.filterMap_nil, List.length_nil]
    omega
  | takes hs hst hq =>
    have hrem := hs.remains t
    rw [hq.reports, reports_report rfl rfl, reports_cons rfl, hst, reports_cons rfl]
    simp only [exits, Option.toList_none, List.filterMap_nil, List.length_nil]
    omega
  | returns hs hst hst' => rw [hs, hst', hst, reports_cons rfl]; exact (Nat.zero_add _).symm
  | @ends u g x a k hs hst hf hr _ hst' =>
    rw [hs, hst', hst, reports_report hf hr]
    have hx : (exits t (some (Booking.left u x)).toList).length = if t = u then 1 else 0 := by
      rw [Option.toList_some, exits_left]
      split <;> rfl
    omega
  | @declines u k hs hp =>
    have hrem := hs.remains t
    have hx : (exits t (some (Booking.left u .declined)).toList).length = if t = u then 1 else 0 := by
      rw [Option.toList_some, exits_left]
      split <;> rfl
    rw [hp.reports]
    omega

/-- What a move adds to the counts it adds to what they are counts of. -/
theorem Reckons.balance (hr : Reckons h b h') (Q : ReleaseId → Bool) :
    counts Q b.toList + held Q h'.stack + coming Q h.stack =
      units Q b.toList + coming Q h'.stack + held Q h.stack := by
  cases hr with
  | still _ hp => rw [hp.held, hp.coming]; exact Nat.add_right_comm _ _ _
  | leaves _ _ hr hu hp hq =>
    rw [hq.held, hq.coming, Hub.held, Hub.coming, share_of_report hr, hu, hp.held, hp.coming]
    simp only [Option.any_none, Bool.false_eq_true, ↓reduceIte, Nat.zero_add]
    exact Nat.add_right_comm _ _ _
  | @takes u i rest n a k _ hst hq =>
    have hnone : counts Q (none : Option Booking).toList = 0 ∧ units Q none.toList = 0 := ⟨rfl, rfl⟩
    rw [hq.held, hq.coming, hst, hnone.1, hnone.2]
    simp only [Hub.held, Hub.coming, share, unit?, topRelease?, Option.any_some, Option.any_none]
    by_cases hQ : Q (i, a.length)
    · simp only [hQ, Bool.false_eq_true, ↓reduceIte]
      omega
    · simp only [hQ, Bool.false_eq_true, ↓reduceIte]
      omega
  | @returns i n a k _ hst hst' =>
    rw [hst, hst']
    simp only [Hub.counts, Hub.units, Hub.held, Hub.coming, share, unit?, Booking.counted,
      Booking.isUnit, Option.toList_some, List.countP_cons, List.countP_nil, Option.any_none, Bool.false_eq_true, ↓reduceIte]
    omega
  | @ends u g x a k _ hst _ hr hx hst' =>
    rw [hst, hst']
    simp only [Hub.counts, Hub.units, Hub.held, Hub.coming, share_of_report hr, Booking.counted,
      Booking.isUnit, hx, Option.toList_some, List.countP_cons, List.countP_nil]
    omega
  | declines _ hp =>
    rw [hp.held, hp.coming]
    exact Nat.add_right_comm _ _ _

/-- When a release returns, its count is what it has cancelled. -/
theorem Reckons.tallied {k : List Booking} (hr : Reckons h b h') (ht : Tallied k)
    (hb : ∀ Q, counts Q k + held Q h.stack = units Q k + coming Q h.stack) :
    Tallied (b.toList ++ k) := by
  cases hr with
  | still | leaves | takes | ends | declines => exact ht
  | @returns i n a _ _ hst _ =>
    refine ⟨?_, ht⟩
    have hsum := hb (· == (i, a.length))
    have hsince := ht.counts_add_since (i, a.length)
    have hheld : held (· == (i, a.length)) h.stack = n := by
      rw [hst, held, held_above (Nat.le_refl _), share, beq_self_eq_true]
      rfl
    have hcoming : coming (· == (i, a.length)) h.stack = 0 := by
      rw [hst, coming_cons rfl, coming_above (Nat.le_refl _)]
    show n = since (i, a.length) k
    omega

theorem Reckons.listed (hr : Reckons h b h') (hl : Listed h h.stack) : Listed h h'.stack := by
  cases hr with
  | still _ hp | declines _ hp => exact hp.listed hl
  | leaves _ _ hr hu hp hq =>
    refine hq.listed ⟨fun i rest n he => ?_, fun s i n he ht => ?_, hp.listed hl⟩
    · subst he; cases hr
    · subst he
      rw [show topRelease? _ = none from hu] at ht
      cases ht
  | takes _ hst hq =>
    rw [hst] at hl
    obtain ⟨hm, -, hl⟩ := hl
    have hm := hm _ _ _ rfl
    refine hq.listed ⟨fun i rest n he => ?_, fun s i n he ht => ?_, fun i rest n he s hs => ?_,
      fun s i n he => ?_, hl⟩
    · cases he
    · cases he
      cases ht
      exact hm _ List.mem_cons_self
    · cases he
      exact hm s (List.mem_cons_of_mem _ hs)
    · cases he
  | returns _ hst hst' | ends _ hst _ _ _ hst' =>
    rw [hst] at hl
    rw [hst']
    exact hl.2.2

end
end Aftermath.Hub
