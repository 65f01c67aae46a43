import Aftermath.Memory

/-! The bus as a log of the events it has taken in. It keeps the latest of them, so a receiver that
has fallen too far behind goes on from the oldest one kept. -/

namespace Aftermath
namespace Bus

/-- The bus has taken in the events of a log, the oldest first, and keeps the latest of them. -/
structure Holds {α : Type} (b : Bus α) (log : List α) : Prop where
  sent : b.sent = log.length
  kept : b.kept = log.reverse.take b.capacity

section
variable {α : Type} {b : Bus α} {log : List α} {a : α} {n r : Nat}

theorem holds_new {c : Nat} (hb : new? c = some b) : b.Holds [] ∧ b.capacity = c.nextPowerOfTwo ∧
    b.handles = 1 ∧ b.receivers = [] := by
  unfold new? at hb
  split at hb <;> cases hb
  exact ⟨⟨rfl, List.take_nil.symm⟩, rfl, rfl, rfl⟩

theorem nextPowerOfTwo_one : Nat.nextPowerOfTwo 1 = 1 := by decide +kernel

theorem new?_one : (new? 1 : Option (Bus α)) = some { capacity := 1 } := by
  unfold new?
  rw [nextPowerOfTwo_one]
  rfl

/-- An event is lost at once when there are no receivers. -/
theorem Holds.emit (hb : b.Holds log) (a : α) :
    (b.emit a).Holds (if b.subscriberCount = 0 then log else log ++ [a]) := by
  unfold Bus.emit
  split
  · exact hb
  · refine ⟨?_, ?_⟩
    · rw [List.length_append, ← hb.sent]
      rfl
    · rw [List.reverse_append, List.reverse_singleton, List.singleton_append]
      simp only [hb.kept]
      cases b.capacity with
      | zero => rfl
      | succ c =>
        rw [List.take_succ_cons, List.take_succ_cons, List.take_take, Nat.min_eq_left (by omega)]

theorem Holds.event? (hb : b.Holds log) (hn : log.length - n ≤ b.capacity) :
    b.event? n = log[n]? := by
  unfold Bus.event?
  rw [hb.sent, hb.kept]
  split
  · next hlt =>
    rw [List.getElem?_take_of_lt (by omega), List.getElem?_reverse (by omega)]
    congr 1
    omega
  · next hlt => rw [List.getElem?_eq_none (by omega)]

/-- A receiver that has lost nothing reads the next event of the log. -/
theorem Holds.read_next (hb : b.Holds log) (hn : log.length - n ≤ b.capacity)
    (ha : log[n]? = some a) : b.read n = (.event a, n + 1) := by
  unfold Bus.read
  rw [hb.sent, if_neg (by omega), hb.event? hn, ha]

theorem Holds.read_end (hb : b.Holds log) :
    b.read log.length = (if b.handles = 0 then .closed else .empty, log.length) := by
  unfold Bus.read
  rw [hb.sent, if_neg (by omega), hb.event? (by omega), List.getElem?_eq_none (Nat.le_refl _)]

theorem Holds.read_lagged (hb : b.Holds log) (hn : b.capacity < log.length - n) :
    b.read n = (.lagged (log.length - b.capacity - n), log.length - b.capacity) := by
  unfold Bus.read
  rw [hb.sent, if_pos hn]

def moved (b : Bus α) (r n : Nat) : Bus α := { b with receivers := b.receivers.set r (some n) }

theorem Holds.moved (hb : b.Holds log) (r n : Nat) : (b.moved r n).Holds log := ⟨hb.sent, hb.kept⟩

theorem moved_moved (b : Bus α) (r n p : Nat) : (b.moved r n).moved r p = b.moved r p := by
  simp only [Bus.moved, List.set_set]

theorem receivers_moved {n : Option Nat} (hr : b.receivers[r]? = some n) (p : Nat) :
    (b.moved r p).receivers[r]? = some (some p) :=
  List.getElem?_set_self (List.getElem?_eq_some_iff.1 hr).1

theorem receive_eq (hr : b.receivers[r]? = some (some n)) :
    b.receive r = ((b.read n).1, b.moved r (b.read n).2) := by
  unfold Bus.receive
  rw [hr]
  rfl

/-- What a receiver has still to read: what it has not read, less what is no longer kept. -/
def unread (b : Bus α) (log : List α) (n : Nat) : List α :=
  log.drop (max n (log.length - b.capacity))

theorem subscriberCount_pos (hr : b.receivers[r]? = some (some n)) : b.subscriberCount ≠ 0 := by
  have hin : some n ∈ b.receivers := List.mem_of_getElem? hr
  exact Nat.ne_of_gt (List.countP_pos_iff.2 ⟨_, hin, rfl⟩)

end
end Bus

namespace Memory

def Hearing.of : Option Envelope → Hearing
  | some e => .event e
  | none => .nothing

section
variable {b : Bus Envelope} {log : List Envelope} {r n k : Nat}

/-- A listener that has lost nothing hears the first event of its key among those it has not
read. -/
theorem hear_next (key : Key) (hb : b.Holds log) (hh : b.handles ≠ 0)
    (hr : b.receivers[r]? = some (some n)) (hn : n ≤ log.length)
    (hk : log.length - n ≤ b.capacity) (hf : log.length - n < k) :
    ∃ p, hear key r k b = (⟨Hearing.of ((log.drop n).find? fun e => e.key = key), []⟩,
        b.moved r p) ∧ n ≤ p ∧ p ≤ log.length ∧
      ((log.drop n).find? (fun e => e.key = key) = none → p = log.length) := by
  induction k generalizing b n with
  | zero => omega
  | succ k ih =>
    unfold hear
    rw [Bus.receive_eq hr]
    rcases Nat.lt_or_eq_of_le hn with hlt | rfl
    · have ha : log[n]? = some log[n] := List.getElem?_eq_getElem hlt
      rw [hb.read_next hk ha, List.drop_eq_getElem_cons hlt, List.find?_cons]
      by_cases hkey : log[n].key = key
      · simp only [hkey, if_true, decide_true]
        exact ⟨n + 1, rfl, by omega, hlt, by simp⟩
      · simp only [hkey, if_false, decide_false]
        obtain ⟨p, he, hnp, hp, hnone⟩ := ih (hb.moved r (n + 1)) hh (Bus.receivers_moved hr _) hlt
          (by simp only [Bus.moved]; omega) (by omega)
        refine ⟨p, ?_, by omega, hp, hnone⟩
        rw [he, Bus.moved_moved]
    · rw [hb.read_end, if_neg hh, List.drop_length]
      exact ⟨log.length, rfl, Nat.le_refl _, Nat.le_refl _, fun _ => rfl⟩

/-- One run of a listener hears the first event of its key among those it has still to read, and
when there is none it has read all. -/
theorem hear_unread (key : Key) (hb : b.Holds log) (hh : b.handles ≠ 0)
    (hr : b.receivers[r]? = some (some n)) (hn : n ≤ log.length) :
    ∃ lags p, hear key r (b.capacity + 2) b =
        (⟨Hearing.of ((b.unread log n).find? fun e => e.key = key), lags⟩,
          b.moved r p) ∧ n ≤ p ∧ p ≤ log.length ∧
      ((b.unread log n).find? (fun e => e.key = key) = none → p = log.length) := by
  unfold Bus.unread
  by_cases hk : log.length - n ≤ b.capacity
  · rw [Nat.max_eq_left (by omega)]
    exact ⟨[], hear_next key hb hh hr hn hk (by omega)⟩
  · rw [Nat.max_eq_right (by omega)]
    obtain ⟨p, he, hnp, hp, hnone⟩ := hear_next (k := b.capacity + 1) key
      (hb.moved r (log.length - b.capacity)) hh (Bus.receivers_moved hr _) (by omega)
      (by simp only [Bus.moved]; omega) (by omega)
    refine ⟨[log.length - b.capacity - n], p, ?_, by omega, hp, hnone⟩
    unfold hear
    rw [Bus.receive_eq hr, hb.read_lagged (by omega)]
    simp only [he, Bus.moved_moved]

end
end Memory
end Aftermath
