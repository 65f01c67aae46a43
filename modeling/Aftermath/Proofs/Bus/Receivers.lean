import Aftermath.Proofs.Bus

/-! What the receivers of a bus read. The bus is used in any order: events are emitted, receivers come
and go, handles are copied and dropped. What each receiver reads accounts for every event since it
subscribed: an event is read in its turn, or it is among those that the receiver is told it has
lost. -/

namespace Aftermath.Bus

inductive Call (α : Type) where
  | emit (a : α)
  | subscribe
  | receive (r : Nat)
  | dropReceiver (r : Nat)
  | clone
  | dropHandle
deriving DecidableEq, Repr

inductive Answer (α : Type) where
  | nothing
  | count (n : Nat)
  | received (x : Received α)
deriving DecidableEq, Repr

/-- What is known of a bus from the calls alone. -/
structure History (α : Type) where
  /-- The events that were emitted while there was a receiver, the oldest first. -/
  log : List α := []
  born : Nat := 0
  alive : List Nat := []
  handles : Nat := 1
deriving DecidableEq, Repr

namespace History

def after {α : Type} (g : History α) : Call α → History α
  | .emit a => if g.alive = [] then g else { g with log := g.log ++ [a] }
  | .subscribe => { g with born := g.born + 1, alive := g.born :: g.alive }
  | .receive _ => g
  | .dropReceiver r => { g with alive := g.alive.erase r }
  | .clone => { g with handles := g.handles + 1 }
  | .dropHandle => { g with handles := g.handles - 1 }

def afterAll {α : Type} (g : History α) (cs : List (Call α)) : History α := cs.foldl after g

def of {α : Type} (told : List (Call α × Answer α)) : History α := afterAll {} (told.map Prod.fst)

theorem log_after {α : Type} (g : History α) (c : Call α) : g.log <+: (g.after c).log := by
  cases c with
  | emit a =>
    show g.log <+: (if g.alive = [] then g else { g with log := g.log ++ [a] }).log
    split
    · exact List.prefix_rfl
    · exact List.prefix_append _ _
  | _ => exact List.prefix_rfl

/-- The log only grows. -/
theorem log_afterAll {α : Type} (g : History α) (cs : List (Call α)) :
    g.log <+: (g.afterAll cs).log := by
  induction cs generalizing g with
  | nil => exact List.prefix_rfl
  | cons c cs ih => exact (log_after g c).trans (ih (g.after c))

end History

section
variable {α : Type}

/-- A call and its answer. Whoever emits, subscribes or copies needs a handle; a receiver that reads
has not been dropped. -/
def call? (b : Bus α) : Call α → Option (Answer α × Bus α)
  | .emit a =>
    if b.handles = 0 then none
    else
      let (n, b) := b.send a
      some (.count n, b)
  | .subscribe => if b.handles = 0 then none else some (.nothing, b.subscribe)
  | .receive r =>
    match b.receivers[r]?.join with
    | none => none
    | some _ =>
      let (x, b) := b.receive r
      some (.received x, b)
  | .dropReceiver r =>
    match b.receivers[r]?.join with
    | none => none
    | some _ => some (.nothing, b.dropReceiver r)
  | .clone => if b.handles = 0 then none else some (.nothing, b.clone)
  | .dropHandle => if b.handles = 0 then none else some (.nothing, b.dropHandle)

def run? (b : Bus α) : List (Call α) → Option (List (Call α × Answer α))
  | [] => some []
  | c :: cs => do
    let (a, b) ← b.call? c
    return (c, a) :: (← b.run? cs)

end

/-- One reading of a receiver at a place in the log, and the place it reads next. The bus keeps `n`
events. -/
inductive Reads {α : Type} (n : Nat) (g : History α) : Nat → Received α → Nat → Prop where
  | event {p : Nat} {a : α} : g.log.length ≤ p + n → g.log[p]? = some a →
      Reads n g p (.event a) (p + 1)
  | lagged {p k : Nat} : 1 ≤ k → p + n < g.log.length → p + k = g.log.length - n →
      Reads n g p (.lagged k) (g.log.length - n)
  | empty : g.handles ≠ 0 → Reads n g g.log.length .empty g.log.length
  | closed : g.handles = 0 → Reads n g g.log.length .closed g.log.length

/-- The readings of one receiver walk the log. -/
inductive Walks {α : Type} (n r : Nat) : History α → List (Call α × Answer α) → Nat → Nat → Prop where
  | nil {g p} : Walks n r g [] p p
  | reads {g p x q z rest} : Reads n g p x q → Walks n r g rest q z →
      Walks n r g ((.receive r, .received x) :: rest) p z
  | other {g c a p z rest} : c ≠ .receive r → Walks n r (g.after c) rest p z →
      Walks n r g ((c, a) :: rest) p z

def reading? {α : Type} (r : Nat) : Call α × Answer α → Option (Received α)
  | (.receive s, .received x) => if s = r then some x else none
  | _ => none

def readings {α : Type} (r : Nat) (told : List (Call α × Answer α)) : List (Received α) :=
  told.filterMap (reading? r)

/-- Readings account for a part of the log: each event is read in its turn, or it is one of those that
the receiver is told it has lost. -/
inductive Accounts {α : Type} : List (Received α) → List α → Prop where
  | nil : Accounts [] []
  | event {a xs l} : Accounts xs l → Accounts (.event a :: xs) (a :: l)
  | lagged {lost xs l} : Accounts xs l → Accounts (.lagged lost.length :: xs) (lost ++ l)
  | empty {xs l} : Accounts xs l → Accounts (.empty :: xs) l
  | closed {xs l} : Accounts xs l → Accounts (.closed :: xs) l

section
variable {α : Type} {b b' : Bus α} {g : History α} {c : Call α} {x : Answer α} {n r p q : Nat}
variable {y : Received α} {cs : List (Call α)} {told : List (Call α × Answer α)}

/-! ### The bus and its history -/

/-- The bus is as its history says. -/
structure Follows (b : Bus α) (g : History α) : Prop where
  log : b.Holds g.log
  handles : b.handles = g.handles
  born : b.receivers.length = g.born
  alive : b.subscriberCount = g.alive.length
  distinct : g.alive.Nodup
  mem_alive : ∀ r : Nat, r ∈ g.alive ↔ ∃ p, b.receivers[r]? = some (some p)
  within : ∀ r p : Nat, b.receivers[r]? = some (some p) → p ≤ g.log.length

theorem follows_new {k : Nat} (hb : new? k = some b) : Follows b {} := by
  obtain ⟨hl, -, hh, hr⟩ := holds_new hb
  refine ⟨hl, hh, by rw [hr]; rfl, by rw [subscriberCount, hr]; rfl, .nil, fun r => ?_, fun r p h => ?_⟩
  · simp [hr]
  · simp [hr] at h

/-- What a receiver reads is the next reading of its walk. -/
theorem Follows.reads (hf : Follows b g) (hr : b.receivers[r]? = some (some p)) :
    Reads b.capacity g p (b.read p).1 (b.read p).2 := by
  have hp := hf.within r p hr
  by_cases hlag : b.capacity < g.log.length - p
  · rw [hf.log.read_lagged hlag]
    exact .lagged (by omega) (by omega) (by omega)
  · rcases Nat.lt_or_eq_of_le hp with hlt | rfl
    · rw [hf.log.read_next (Nat.le_of_not_lt hlag) (List.getElem?_eq_getElem hlt)]
      exact .event (by omega) (List.getElem?_eq_getElem hlt)
    · rw [hf.log.read_end, hf.handles]
      split
      · next h0 => exact .closed h0
      · next h0 => exact .empty h0

theorem Reads.le (hr : Reads n g p y q) : p ≤ q := by
  cases hr <;> omega

theorem Reads.within (hr : Reads n g p y q) : q ≤ g.log.length := by
  cases hr with
  | event _ ha => exact (List.getElem?_eq_some_iff.1 ha).1
  | _ => omega

/-! ### Calls -/

theorem receivers_set (hr : b.receivers[r]? = some (some p)) (o : Option Nat) (s : Nat) :
    (b.receivers.set r o)[s]? = if s = r then some o else b.receivers[s]? := by
  have hlt : r < b.receivers.length := (List.getElem?_eq_some_iff.1 hr).1
  rw [List.getElem?_set]
  by_cases hs : s = r
  · rw [if_pos hs.symm, if_pos hs, if_pos hlt]
  · rw [if_neg (Ne.symm hs), if_neg hs]

theorem Follows.emit (hf : Follows b g) (a : α) : Follows (b.emit a) (g.after (.emit a)) := by
  have hl := hf.log.emit a
  have hnil : b.subscriberCount = 0 ↔ g.alive = [] := by
    rw [hf.alive, List.length_eq_zero_iff]
  unfold History.after
  by_cases h0 : g.alive = []
  · rw [if_pos (hnil.2 h0)] at hl
    have he : b.emit a = b := if_pos (hnil.2 h0)
    simp only [if_pos h0]
    rw [he]
    exact hf
  · rw [if_neg (mt hnil.1 h0)] at hl
    have he : b.emit a = { b with sent := b.sent + 1, kept := (a :: b.kept).take b.capacity } :=
      if_neg (mt hnil.1 h0)
    simp only [if_neg h0]
    rw [he] at hl ⊢
    exact ⟨hl, hf.handles, hf.born, hf.alive, hf.distinct, hf.mem_alive, fun s p hs =>
      Nat.le_trans (hf.within s p hs) (by simp)⟩

theorem Follows.subscribe (hf : Follows b g) : Follows b.subscribe (g.after .subscribe) where
  log := ⟨hf.log.sent, hf.log.kept⟩
  handles := hf.handles
  born := by simp [Bus.subscribe, History.after, hf.born]
  alive := by
    have ha := hf.alive
    unfold subscriberCount at ha ⊢
    simp [Bus.subscribe, History.after, ha]
  distinct := by
    refine List.nodup_cons.2 ⟨fun hin => ?_, hf.distinct⟩
    obtain ⟨p, hp⟩ := (hf.mem_alive _).1 hin
    have hlt := (List.getElem?_eq_some_iff.1 hp).1
    rw [hf.born] at hlt
    exact Nat.lt_irrefl _ hlt
  mem_alive s := by
    have hs := hf.mem_alive s
    have hb := hf.born
    simp only [Bus.subscribe, History.after, List.mem_cons, hs]
    rcases Nat.lt_trichotomy s b.receivers.length with hlt | rfl | hlt
    · rw [List.getElem?_append_left hlt]
      simp only [or_iff_right_iff_imp]
      intro h; omega
    · simp [hb]
    · rw [List.getElem?_append_right (Nat.le_of_lt hlt), List.getElem?_eq_none (Nat.le_of_lt hlt)]
      have hne : s ≠ g.born := by omega
      have hpos : s - b.receivers.length ≠ 0 := by omega
      simp [hne, hpos]
  within s p hs := by
    simp only [Bus.subscribe, History.after] at hs ⊢
    rcases Nat.lt_or_ge s b.receivers.length with hlt | hge
    · rw [List.getElem?_append_left hlt] at hs
      exact hf.within s p hs
    · rw [List.getElem?_append_right hge, List.getElem?_singleton] at hs
      split at hs
      · cases hs
        exact Nat.le_of_eq hf.log.sent
      · cases hs

theorem Follows.moved (hf : Follows b g) (hr : b.receivers[r]? = some (some p))
    (hq : q ≤ g.log.length) : Follows (b.moved r q) g where
  log := hf.log.moved r q
  handles := hf.handles
  born := by simp [Bus.moved, hf.born]
  alive := by
    have ha := hf.alive
    have hlt := (List.getElem?_eq_some_iff.1 hr).1
    have hpos := subscriberCount_pos hr
    unfold subscriberCount at ha hpos ⊢
    simp only [Bus.moved]
    rw [List.countP_set hlt, (List.getElem?_eq_some_iff.1 hr).2]
    simp only [Option.isSome_some, if_true]
    omega
  distinct := hf.distinct
  mem_alive s := by
    rw [hf.mem_alive s]
    simp only [Bus.moved, receivers_set hr]
    split
    · next hs => simp [hs, hr]
    · rfl
  within s t hs := by
    simp only [Bus.moved, receivers_set hr] at hs
    split at hs
    · cases hs; exact hq
    · exact hf.within s t hs

theorem Follows.dropReceiver (hf : Follows b g) (hr : b.receivers[r]? = some (some p)) :
    Follows (b.dropReceiver r) (g.after (.dropReceiver r)) where
  log := ⟨hf.log.sent, hf.log.kept⟩
  handles := hf.handles
  born := by simp [Bus.dropReceiver, History.after, hf.born]
  alive := by
    have ha := hf.alive
    have hlt := (List.getElem?_eq_some_iff.1 hr).1
    unfold subscriberCount at ha ⊢
    simp only [Bus.dropReceiver, History.after]
    rw [List.countP_set hlt, (List.getElem?_eq_some_iff.1 hr).2,
      List.length_erase_of_mem ((hf.mem_alive r).2 ⟨p, hr⟩), ha]
    simp
  distinct := hf.distinct.erase r
  mem_alive s := by
    simp only [Bus.dropReceiver, History.after, receivers_set hr, hf.distinct.mem_erase_iff,
      hf.mem_alive s]
    split
    · next hs => simp [hs]
    · next hs => simp [hs]
  within s t hs := by
    simp only [Bus.dropReceiver, receivers_set hr] at hs
    split at hs
    · cases hs
    · exact hf.within s t hs

/-- Where a receiver reads next, if it has not been dropped. -/
theorem receivers_of_join (hr : b.receivers[r]?.join = some p) : b.receivers[r]? = some (some p) := by
  cases h : b.receivers[r]? with
  | none => rw [h] at hr; cases hr
  | some o => rw [h] at hr; exact congrArg some hr

inductive Called (b : Bus α) : Call α → Answer α → Bus α → Prop where
  | emit {a} : b.handles ≠ 0 → Called b (.emit a) (.count b.subscriberCount) (b.emit a)
  | subscribe : b.handles ≠ 0 → Called b .subscribe .nothing b.subscribe
  | receive {s i : Nat} : b.receivers[s]? = some (some i) →
      Called b (.receive s) (.received (b.read i).1) (b.moved s (b.read i).2)
  | dropReceiver {s i : Nat} : b.receivers[s]? = some (some i) →
      Called b (.dropReceiver s) .nothing (b.dropReceiver s)
  | clone : b.handles ≠ 0 → Called b .clone .nothing b.clone
  | dropHandle : b.handles ≠ 0 → Called b .dropHandle .nothing b.dropHandle

theorem called_of_call? (hc : b.call? c = some (x, b')) : Called b c x b' := by
  cases c <;> simp only [call?] at hc
  case emit | subscribe | clone | dropHandle =>
    split at hc
    · cases hc
    · next h0 => cases hc; constructor; exact h0
  case receive =>
    split at hc
    · cases hc
    · next p hp =>
      rw [receive_eq (receivers_of_join hp)] at hc
      cases hc
      exact .receive (receivers_of_join hp)
  case dropReceiver =>
    split at hc
    · cases hc
    · next p hp =>
      cases hc
      exact .dropReceiver (receivers_of_join hp)

theorem Called.follows (hc : Called b c x b') (hf : Follows b g) : Follows b' (g.after c) := by
  cases hc with
  | emit _ => exact hf.emit _
  | subscribe _ => exact hf.subscribe
  | receive hr => exact hf.moved hr (hf.reads hr).within
  | dropReceiver hr => exact hf.dropReceiver hr
  | clone _ =>
    exact ⟨⟨hf.log.sent, hf.log.kept⟩, congrArg (· + 1) hf.handles, hf.born, hf.alive, hf.distinct,
      hf.mem_alive, hf.within⟩
  | dropHandle _ =>
    exact ⟨⟨hf.log.sent, hf.log.kept⟩, congrArg (· - 1) hf.handles, hf.born, hf.alive, hf.distinct,
      hf.mem_alive, hf.within⟩

theorem Called.capacity (hc : Called b c x b') : b'.capacity = b.capacity := by
  cases hc with
  | emit _ => unfold Bus.emit; split <;> rfl
  | _ => rfl

/-- A receiver stays where it is unless it reads or is dropped. -/
theorem Called.receivers (hc : Called b c x b') (hn : c ≠ .receive r) (hd : c ≠ .dropReceiver r)
    {o : Option Nat} (hr : b.receivers[r]? = some o) : b'.receivers[r]? = some o := by
  cases hc with
  | emit _ => unfold Bus.emit; split <;> exact hr
  | subscribe _ =>
    rw [Bus.subscribe, List.getElem?_append_left (List.getElem?_eq_some_iff.1 hr).1]
    exact hr
  | receive hs =>
    simp only [Bus.moved, receivers_set hs]
    rw [if_neg (fun he => hn (by rw [he]))]
    exact hr
  | dropReceiver hs =>
    simp only [Bus.dropReceiver, receivers_set hs]
    rw [if_neg (fun he => hd (by rw [he]))]
    exact hr
  | clone _ | dropHandle _ => exact hr

theorem run?_cons (hr : b.run? (c :: cs) = some told) :
    ∃ x b' rest, b.call? c = some (x, b') ∧ b'.run? cs = some rest ∧ told = (c, x) :: rest := by
  simp only [run?, Option.bind_eq_bind, Option.bind_eq_some_iff] at hr
  obtain ⟨⟨x, b'⟩, hc, rest, hrest, he⟩ := hr
  exact ⟨x, b', rest, hc, hrest, (Option.some.inj he).symm⟩

/-! ### Runs -/

/-- A receiver that has been dropped reads nothing any more. -/
theorem walks_dropped (hd : b.receivers[r]? = some none) (hr : b.run? cs = some told)
    (g : History α) (p : Nat) : Walks n r g told p p := by
  induction cs generalizing b g told with
  | nil => cases hr; exact .nil
  | cons c cs ih =>
    obtain ⟨x, b', rest, hc, hrest, rfl⟩ := run?_cons hr
    have hc := called_of_call? hc
    have hne : c ≠ .receive r := by
      rintro rfl
      cases hc with
      | receive hs => rw [hd] at hs; cases hs
    have hnd : c ≠ .dropReceiver r := by
      rintro rfl
      cases hc with
      | dropReceiver hs => rw [hd] at hs; cases hs
    exact .other hne (ih (hc.receivers hne hnd hd) hrest _)

/-- From wherever a receiver is, its readings walk the log. -/
theorem Follows.walks (hf : Follows b g) (hp : b.receivers[r]? = some (some p))
    (hr : b.run? cs = some told) : ∃ q, Walks b.capacity r g told p q := by
  induction cs generalizing b g p told with
  | nil => cases hr; exact ⟨p, .nil⟩
  | cons c cs ih =>
    obtain ⟨x, b', rest, hc, hrest, rfl⟩ := run?_cons hr
    have hc := called_of_call? hc
    have hf' := hc.follows hf
    have hcap := hc.capacity
    by_cases hn : c = .receive r
    · subst hn
      cases hc with
      | receive hs =>
        cases hp.symm.trans hs
        obtain ⟨q, hq⟩ := ih hf' (receivers_moved hs _) hrest
        exact ⟨q, .reads (hf.reads hs) hq⟩
    · by_cases hd : c = .dropReceiver r
      · subst hd
        cases hc with
        | dropReceiver hs =>
          have hdead : (b.dropReceiver r).receivers[r]? = some none := by
            simp only [Bus.dropReceiver, receivers_set hs, if_true]
          exact ⟨p, .other hn (walks_dropped hdead hrest _ p)⟩
      · obtain ⟨q, hq⟩ := ih hf' (hc.receivers hn hd hp) hrest
        rw [hcap] at hq
        exact ⟨q, .other hn hq⟩

/-- Any call of a run, on the bus as it is after the calls before. -/
theorem Follows.called (hf : Follows b g) (hr : b.run? cs = some told)
    {pre post : List (Call α × Answer α)} (he : told = pre ++ (c, x) :: post) :
    ∃ b₁ b₂ cs', Follows b₁ (g.afterAll (pre.map Prod.fst)) ∧ b₁.capacity = b.capacity ∧
      Called b₁ c x b₂ ∧ b₂.run? cs' = some post := by
  induction pre generalizing b g cs told with
  | nil =>
    cases cs with
    | nil => cases hr; cases he
    | cons d cs =>
      obtain ⟨y, b', rest, hc, hrest, rfl⟩ := run?_cons hr
      cases he
      exact ⟨b, b', cs, hf, rfl, called_of_call? hc, hrest⟩
  | cons d pre ih =>
    cases cs with
    | nil => cases hr; cases he
    | cons d cs =>
      obtain ⟨y, b', rest, hc, hrest, rfl⟩ := run?_cons hr
      cases he
      have hc := called_of_call? hc
      obtain ⟨b₁, b₂, cs', hf', hcap, hcall⟩ := ih (hc.follows hf) hrest rfl
      exact ⟨b₁, b₂, cs', hf', hcap.trans hc.capacity, hcall⟩

/-- One reading accounts for what it passes, also in a log that has grown since. -/
theorem Reads.accounts (hr : Reads n g p y q) {log : List α} (hpre : g.log <+: log)
    {xs : List (Received α)} {l : List α} (hacc : Accounts xs l) :
    Accounts (y :: xs) ((log.drop p).take (q - p) ++ l) := by
  cases hr with
  | @event _ a _ ha =>
    obtain ⟨hlt, hget⟩ := List.getElem?_eq_some_iff.1 ha
    rw [show p + 1 - p = 1 by omega,
      List.drop_eq_getElem_cons (Nat.lt_of_lt_of_le hlt hpre.length_le), ← hpre.getElem hlt, hget]
    exact .event hacc
  | @lagged _ k _ _ _ =>
    have hle := hpre.length_le
    generalize hlost : (log.drop p).take (g.log.length - n - p) = lost
    have hlen : lost.length = k := by
      rw [← hlost, List.length_take, List.length_drop]
      omega
    rw [← hlen]
    exact .lagged hacc
  | empty _ =>
    rw [Nat.sub_self, List.take_zero, List.nil_append]
    exact .empty hacc
  | closed _ =>
    rw [Nat.sub_self, List.take_zero, List.nil_append]
    exact .closed hacc

/-- A walk accounts for all that it passes. -/
theorem Walks.accounts (hw : Walks n r g told p q) (hp : p ≤ g.log.length) :
    p ≤ q ∧ q ≤ (g.afterAll (told.map Prod.fst)).log.length ∧
      Accounts (readings r told) (((g.afterAll (told.map Prod.fst)).log.drop p).take (q - p)) := by
  induction hw with
  | nil => exact ⟨Nat.le_refl _, hp, by rw [Nat.sub_self]; exact .nil⟩
  | @reads g p x q z rest hr _ ih =>
    obtain ⟨hqz, hz, hacc⟩ := ih hr.within
    have hpq := hr.le
    refine ⟨Nat.le_trans hpq hqz, hz, ?_⟩
    have hread : readings r ((.receive r, .received x) :: rest) = x :: readings r rest := by
      simp [readings, reading?]
    have hall : g.afterAll (((.receive r, .received x) :: rest).map Prod.fst) =
        g.afterAll (rest.map Prod.fst) := rfl
    rw [hread, hall]
    -- what is read first, and what is read after it
    have hsplit : ((g.afterAll (rest.map Prod.fst)).log.drop p).take (z - p) =
        ((g.afterAll (rest.map Prod.fst)).log.drop p).take (q - p) ++
          ((g.afterAll (rest.map Prod.fst)).log.drop q).take (z - q) := by
      rw [show z - p = (q - p) + (z - q) by omega, List.take_add, List.drop_drop,
        show p + (q - p) = q by omega]
    rw [hsplit]
    exact hr.accounts (g.log_afterAll (rest.map Prod.fst)) hacc
  | @other g c a p z rest hn _ ih =>
    obtain ⟨hpz, hz, hacc⟩ := ih (Nat.le_trans hp (g.log_after c).length_le)
    refine ⟨hpz, hz, ?_⟩
    have hnone : reading? r (c, a) = none := by
      unfold reading?
      split
      · next s x he =>
        cases he
        exact if_neg fun hs => hn (congrArg Call.receive hs)
      · rfl
    rw [readings, List.filterMap_cons_none hnone]
    exact hacc

end

/-- Every receiver of a bus walks the log of the events that were emitted while there were receivers,
from its end at the moment of the subscription. Each event it reads is the next one of the log; when
it is more than `n` events behind, `n` being the capacity rounded up to a power of two, it is told
how many it has lost and goes on at the oldest of the latest `n`; at the end of the log it finds
nothing, and that the bus is closed when there are no handles any more. So its readings account for
the log as far as it has come. And each emission is answered by the number of receivers alive. -/
theorem receivers_walk_log {α : Type} {k : Nat} {b : Bus α} {cs : List (Call α)}
    {told : List (Call α × Answer α)} (hb : new? k = some b) (hr : b.run? cs = some told) :
    (∀ pre a x post, told = pre ++ (.emit a, x) :: post →
      x = .count (History.of pre).alive.length) ∧
    ∀ pre x post, told = pre ++ (.subscribe, x) :: post →
      ∃ q, Walks k.nextPowerOfTwo (History.of pre).born ((History.of pre).after .subscribe) post
          (History.of pre).log.length q ∧
        q ≤ (History.of told).log.length ∧
        Accounts (readings (History.of pre).born post)
          (((History.of told).log.drop (History.of pre).log.length).take
            (q - (History.of pre).log.length)) := by
  constructor
  · intro pre a x post he
    obtain ⟨b₁, b₂, cs', (hf : Follows b₁ (History.of pre)), -, hc, -⟩ :=
      (follows_new hb).called hr he
    cases hc with
    | emit _ => exact congrArg Answer.count hf.alive
  · intro pre x post he
    obtain ⟨b₁, b₂, cs', (hf : Follows b₁ (History.of pre)), hcap, hc, hrest⟩ :=
      (follows_new hb).called hr he
    have hf' := hc.follows hf
    have hcap' := hc.capacity
    cases hc with
    | subscribe _ =>
      have hnew : b₁.subscribe.receivers[(History.of pre).born]? =
          some (some (History.of pre).log.length) := by
        have hlen : b₁.receivers.length = (History.of pre).born := hf.born
        rw [Bus.subscribe, ← hlen, List.getElem?_concat_length, hf.log.sent]
      obtain ⟨q, hq⟩ := hf'.walks hnew hrest
      rw [hcap', hcap, (holds_new hb).2.1] at hq
      obtain ⟨-, hle, hacc⟩ := hq.accounts (Nat.le_refl _)
      have hall : ((History.of pre).after .subscribe).afterAll (post.map Prod.fst) =
          History.of told := by
        rw [he]
        simp [History.of, History.afterAll]
      rw [hall] at hle hacc
      exact ⟨q, hq, hle, hacc⟩

/-- On a bus for one event a receiver reads that it has lost one event, then the next one; then there
is nothing, and at last the bus is closed. -/
theorem lagging_receiver_walks_log : ∃ (b : Bus Nat) (told : List (Call Nat × Answer Nat)),
    new? 1 = some b ∧
    b.run? [.subscribe, .emit 5, .emit 6, .receive 0, .receive 0, .receive 0, .dropHandle,
      .receive 0] = some told ∧
    readings 0 told = [.lagged 1, .event 6, .empty, .closed] ∧
    ∃ q, Walks (Nat.nextPowerOfTwo 1) 0 (({} : History Nat).after .subscribe) (told.drop 1) 0 q := by
  have hr : ({ capacity := 1 } : Bus Nat).run? [.subscribe, .emit 5, .emit 6, .receive 0, .receive 0,
      .receive 0, .dropHandle, .receive 0] = some ((.subscribe, .nothing) ::
        [(.emit 5, .count 1), (.emit 6, .count 1), (.receive 0, .received (.lagged 1)),
          (.receive 0, .received (.event 6)), (.receive 0, .received .empty), (.dropHandle, .nothing),
          (.receive 0, .received .closed)]) := by decide
  obtain ⟨q, hq, -⟩ := (receivers_walk_log new?_one hr).2 [] .nothing _ rfl
  exact ⟨_, _, new?_one, hr, by decide, q, hq⟩

end Aftermath.Bus
