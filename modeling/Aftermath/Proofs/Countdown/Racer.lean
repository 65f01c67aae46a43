import Aftermath.Countdown.Basic

/-! A countdown in its two parts: a generation, and a slot with the token of the alarm that was set last.
An alarm keeps its token, which may have left the slot, and looks at it before it looks at the
generation. A token is uncancelled exactly while its generation is pending, and then it is the one in the
slot, so the two parts answer as a `Countdown` does, which holds the pending alarm alone. -/

namespace Aftermath.Countdown

structure Token where
  generation : Nat
  due : Nat
  cancelled : Bool := false
deriving DecidableEq, Repr

structure Racer where
  generation : Nat := 0
  /-- All tokens, also those that have left the slot. -/
  tokens : List Token := []
  slot : Option Nat := none
deriving DecidableEq, Repr

/-- What is asked of a countdown. An alarm goes by its number. -/
inductive Operation where
  | arm (due : Nat)
  | cancel
  | armed
  | ring (alarm : Nat)
deriving DecidableEq, Repr

namespace Racer

def revoke (r : Racer) (k : Nat) : Racer :=
  { r with tokens := r.tokens.modify k fun x => { x with cancelled := true } }

def revokeSlot (r : Racer) : Racer :=
  match r.slot with
  | some k => r.revoke k
  | none => r

/-- The token in the slot, unless it is cancelled. -/
def pending? (r : Racer) : Option Token :=
  (r.slot.bind fun k => r.tokens[k]?).filter fun x => !x.cancelled

def isArmed (r : Racer) : Bool := r.pending?.isSome

def arm (r : Racer) (due : Nat) : Racer :=
  let tokens := r.revokeSlot.tokens
  ⟨r.generation + 1, tokens ++ [⟨r.generation + 1, due, false⟩], some tokens.length⟩

def cancel (r : Racer) : Bool × Racer :=
  let taken := if r.isArmed then r.revokeSlot else r
  (r.isArmed, { taken with generation := r.generation + 1, slot := none })

/-- An alarm at its moment. It rings if it takes the generation it was set in one further. -/
def ring (r : Racer) (k : Nat) : Bool × Racer :=
  match r.tokens[k]? with
  | none => (false, r)
  | some x =>
    if x.cancelled then (false, r)
    else if r.generation = x.generation then
      (true, { r with generation := x.generation + 1 }.revoke k)
    else (false, r.revoke k)

def act (r : Racer) : Operation → Bool × Racer
  | .arm due => (true, r.arm due)
  | .cancel => r.cancel
  | .armed => (r.isArmed, r)
  | .ring k => r.ring k

def countdown (r : Racer) : Countdown := ⟨r.generation, r.pending?.map Token.due⟩

end Racer

structure Plain where
  countdown : Countdown := {}
  alarms : List Nat := []
deriving DecidableEq, Repr

def Plain.act (p : Plain) : Operation → Bool × Plain
  | .arm due =>
    let c := p.countdown.arm due
    (true, ⟨c, p.alarms ++ [c.generation]⟩)
  | .cancel => (p.countdown.isArmed, { p with countdown := p.countdown.cancel })
  | .armed => (p.countdown.isArmed, p)
  | .ring k =>
    match p.alarms[k]?.bind p.countdown.ring? with
    | some c => (true, { p with countdown := c })
    | none => (false, p)

def answers {σ : Type} (act : σ → Operation → Bool × σ) (s : σ) : List Operation → List Bool
  | [] => []
  | o :: os => (act s o).1 :: answers act (act s o).2 os

namespace Racer

def plain (r : Racer) : Plain := ⟨r.countdown, r.tokens.map Token.generation⟩

/-- Generation and tokens agree: a token is uncancelled just in the generation it was made in, and then
it is the one in the slot. -/
structure Agrees (r : Racer) : Prop where
  young : ∀ x ∈ r.tokens, x.generation ≤ r.generation
  current : ∀ x ∈ r.tokens, (x.cancelled = false ↔ x.generation = r.generation)
  held : ∀ k x, r.tokens[k]? = some x → x.cancelled = false → r.slot = some k

section
variable {r : Racer} {k : Nat} {x : Token}

theorem pending?_eq_some : r.pending? = some x ↔
    ∃ k, r.slot = some k ∧ r.tokens[k]? = some x ∧ x.cancelled = false := by
  simp [pending?, Option.filter_eq_some_iff, Option.bind_eq_some_iff, ← exists_and_right, and_assoc]

theorem pending?_of_slot (hs : r.slot = none) : r.pending? = none := by
  rw [pending?, hs]
  rfl

/-! ### Revoking -/

theorem getElem?_revoke (j : Nat) : (r.revoke k).tokens[j]? =
    (r.tokens[j]?).map fun x => if k = j then { x with cancelled := true } else x :=
  List.getElem?_modify _ _ _ _

theorem generations_revoke : (r.revoke k).tokens.map Token.generation =
    r.tokens.map Token.generation := by
  refine List.ext_getElem? fun j => ?_
  rw [List.getElem?_map, List.getElem?_map, getElem?_revoke, Option.map_map]
  congr 1
  funext x
  dsimp only [Function.comp_apply]
  split <;> rfl

theorem generations_revokeSlot : r.revokeSlot.tokens.map Token.generation =
    r.tokens.map Token.generation := by
  unfold revokeSlot
  split
  · exact generations_revoke
  · rfl

theorem mem_revoke (hx : x ∈ (r.revoke k).tokens) : ∃ y ∈ r.tokens, y.generation = x.generation := by
  have hg : x.generation ∈ (r.revoke k).tokens.map Token.generation := List.mem_map_of_mem hx
  rw [generations_revoke] at hg
  exact List.mem_map.1 hg

theorem mem_revokeSlot (hx : x ∈ r.revokeSlot.tokens) : ∃ y ∈ r.tokens, y.generation = x.generation := by
  unfold revokeSlot at hx
  split at hx
  · exact mem_revoke hx
  · exact ⟨x, hx, rfl⟩

/-- Once the token in the slot is cancelled, all are. -/
theorem Agrees.cancelled_of_revoke (hr : r.Agrees) (hs : r.slot = some k)
    (hx : x ∈ (r.revoke k).tokens) : x.cancelled = true := by
  obtain ⟨j, hj⟩ := List.mem_iff_getElem?.1 hx
  rw [getElem?_revoke] at hj
  obtain ⟨y, hy, rfl⟩ := Option.map_eq_some_iff.1 hj
  split
  · rfl
  · next hne =>
    rw [← Bool.not_eq_false]
    intro hc
    exact hne (Option.some.inj (hs.symm.trans (hr.held j y hy hc)))

theorem Agrees.cancelled_of_unarmed (hr : r.Agrees) (hn : r.isArmed = false) (hx : x ∈ r.tokens) :
    x.cancelled = true := by
  obtain ⟨j, hj⟩ := List.mem_iff_getElem?.1 hx
  rw [← Bool.not_eq_false]
  intro hc
  have hp := pending?_eq_some.2 ⟨j, hr.held j x hj hc, hj, hc⟩
  rw [isArmed, hp] at hn
  cases hn

theorem Agrees.cancelled_of_revokeSlot (hr : r.Agrees) (hx : x ∈ r.revokeSlot.tokens) :
    x.cancelled = true := by
  unfold revokeSlot at hx
  split at hx
  · next k hs => exact hr.cancelled_of_revoke hs hx
  · next hs => exact hr.cancelled_of_unarmed (by rw [isArmed, pending?_of_slot hs]; rfl) hx

/-! ### The agreement lasts -/

/-- With every token cancelled, a new generation agrees with them. -/
theorem agrees_of_cancelled (hc : ∀ x ∈ r.tokens, x.cancelled = true)
    (hy : ∀ x ∈ r.tokens, x.generation < r.generation) : r.Agrees where
  young x hx := Nat.le_of_lt (hy x hx)
  current x hx := by simp [hc x hx, Nat.ne_of_lt (hy x hx)]
  held k x hk hx := by
    rw [hc x (List.mem_of_getElem? hk)] at hx
    cases hx

theorem Agrees.arm (hr : r.Agrees) (due : Nat) : (r.arm due).Agrees where
  young x hx := by
    rcases List.mem_append.1 hx with hx | hx
    · obtain ⟨y, hy, he⟩ := mem_revokeSlot hx
      exact Nat.le_succ_of_le (he ▸ hr.young y hy)
    · cases List.mem_singleton.1 hx
      exact Nat.le_refl _
  current x hx := by
    rcases List.mem_append.1 hx with hx | hx
    · obtain ⟨y, hy, he⟩ := mem_revokeSlot hx
      have hlt : x.generation < r.generation + 1 := Nat.lt_succ_of_le (he ▸ hr.young y hy)
      simp [hr.cancelled_of_revokeSlot hx, Racer.arm, Nat.ne_of_lt hlt]
    · cases List.mem_singleton.1 hx
      simp [Racer.arm]
  held k x hk hx := by
    rcases Nat.lt_or_ge k r.revokeSlot.tokens.length with hlt | hge
    · rw [Racer.arm, List.getElem?_append_left hlt] at hk
      rw [hr.cancelled_of_revokeSlot (List.mem_of_getElem? hk)] at hx
      cases hx
    · have hlt := (List.getElem?_eq_some_iff.1 hk).1
      rw [Racer.arm, List.length_append, List.length_singleton] at hlt
      rw [Racer.arm, Nat.le_antisymm (Nat.le_of_lt_succ hlt) hge]

theorem Agrees.cancel (hr : r.Agrees) : r.cancel.2.Agrees := by
  refine agrees_of_cancelled (fun x hx => ?_) fun x hx => ?_
  · by_cases ha : r.isArmed
    · rw [Racer.cancel, if_pos ha] at hx
      exact hr.cancelled_of_revokeSlot hx
    · rw [Racer.cancel, if_neg ha] at hx
      exact hr.cancelled_of_unarmed (by simpa using ha) hx
  · have hold : ∃ y ∈ r.tokens, y.generation = x.generation := by
      unfold Racer.cancel at hx
      dsimp only at hx
      split at hx
      · exact mem_revokeSlot hx
      · exact ⟨x, hx, rfl⟩
    obtain ⟨y, hy, he⟩ := hold
    exact Nat.lt_succ_of_le (he ▸ hr.young y hy)

/-- An uncancelled alarm is never too late: it rings. -/
theorem Agrees.ring_eq (hr : r.Agrees) (hk : r.tokens[k]? = some x) : r.ring k =
    if x.cancelled then (false, r)
    else (true, { r with generation := x.generation + 1 }.revoke k) := by
  simp only [Racer.ring, hk]
  split
  · rfl
  · next hc =>
    have hg := (hr.current x (List.mem_of_getElem? hk)).1 (by simpa using hc)
    rw [if_pos hg.symm]

theorem Agrees.ring (hr : r.Agrees) (k : Nat) : (r.ring k).2.Agrees := by
  cases hk : r.tokens[k]? with
  | none =>
    simp only [Racer.ring, hk]
    exact hr
  | some x =>
    rw [hr.ring_eq hk]
    split
    · exact hr
    · next hc =>
      have hc : x.cancelled = false := by simpa using hc
      have hg := (hr.current x (List.mem_of_getElem? hk)).1 hc
      refine agrees_of_cancelled (fun y hy => ?_) fun y hy => ?_
      · exact hr.cancelled_of_revoke (hr.held k x hk hc) hy
      · obtain ⟨z, hz, he⟩ := mem_revoke (r := r) hy
        show y.generation < x.generation + 1
        rw [hg, ← he]
        exact Nat.lt_succ_of_le (hr.young z hz)

theorem Agrees.act (hr : r.Agrees) (o : Operation) : (r.act o).2.Agrees := by
  cases o with
  | arm due => exact hr.arm due
  | cancel => exact hr.cancel
  | armed => exact hr
  | ring k => exact hr.ring k

/-! ### One part or two -/

/-- A token is uncancelled exactly while its generation is pending. -/
theorem Agrees.pending_iff (hr : r.Agrees) (hk : r.tokens[k]? = some x) :
    r.countdown.isPending x.generation ↔ x.cancelled = false := by
  have hcur := hr.current x (List.mem_of_getElem? hk)
  unfold Countdown.isPending countdown
  simp only [Option.isSome_map, Bool.and_eq_true, beq_iff_eq]
  constructor
  · exact fun h => hcur.2 h.2.symm
  · intro hc
    rw [pending?_eq_some.2 ⟨k, hr.held k x hk hc, hk, hc⟩]
    exact ⟨rfl, (hcur.1 hc).symm⟩

theorem isArmed_countdown (r : Racer) : r.countdown.isArmed = r.isArmed := Option.isSome_map

theorem countdown_arm (r : Racer) (due : Nat) : (r.arm due).countdown = r.countdown.arm due := by
  have hp : (r.arm due).pending? = some ⟨r.generation + 1, due, false⟩ :=
    pending?_eq_some.2 ⟨_, rfl, List.getElem?_concat_length, rfl⟩
  unfold countdown
  rw [hp]
  rfl

theorem countdown_cancel (r : Racer) : r.cancel.2.countdown = r.countdown.cancel := by
  unfold countdown
  rw [pending?_of_slot rfl]
  rfl

theorem generations_arm (r : Racer) (due : Nat) : (r.arm due).tokens.map Token.generation =
    r.tokens.map Token.generation ++ [r.generation + 1] := by
  rw [arm, List.map_append, generations_revokeSlot]
  rfl

theorem generations_cancel (r : Racer) : r.cancel.2.tokens.map Token.generation =
    r.tokens.map Token.generation := by
  unfold cancel
  dsimp only
  split
  · exact generations_revokeSlot
  · rfl

theorem Agrees.plain_ring (hr : r.Agrees) (k : Nat) :
    r.plain.act (.ring k) = ((r.ring k).1, (r.ring k).2.plain) := by
  cases hk : r.tokens[k]? with
  | none => simp [Plain.act, plain, Racer.ring, hk]
  | some x =>
    have hpend := hr.pending_iff hk
    rw [hr.ring_eq hk]
    simp only [Plain.act, plain, List.getElem?_map, hk, Option.map_some, Option.bind_some,
      Countdown.ring?]
    by_cases hc : x.cancelled
    · rw [if_pos hc, if_neg (by rw [hpend, hc]; nofun)]
    · have hc' : x.cancelled = false := by simpa using hc
      have hnone : ({ r with generation := x.generation + 1 }.revoke k).pending? = none := by
        refine Option.eq_none_iff_forall_ne_some.2 fun y hy => ?_
        obtain ⟨j, hs, hj, hy⟩ := pending?_eq_some.1 hy
        rw [hr.cancelled_of_revoke (hr.held k x hk hc') (List.mem_of_getElem? hj)] at hy
        cases hy
      rw [if_neg hc, if_pos (hpend.2 hc')]
      simp only [countdown, hnone, Option.map_none]
      rw [generations_revoke]
      rfl

/-- One operation on the two parts is the same operation on the countdown. -/
theorem Agrees.plain_act (hr : r.Agrees) (o : Operation) :
    r.plain.act o = ((r.act o).1, (r.act o).2.plain) := by
  cases o with
  | arm due =>
    show (true, _) = (true, (r.arm due).plain)
    rw [plain, plain, countdown_arm, generations_arm]
    rfl
  | cancel =>
    show (r.countdown.isArmed, _) = (r.isArmed, r.cancel.2.plain)
    rw [isArmed_countdown, plain, plain, countdown_cancel, generations_cancel]
  | armed =>
    show (r.countdown.isArmed, r.plain) = (r.isArmed, r.plain)
    rw [isArmed_countdown]
  | ring k => exact hr.plain_ring k

theorem Agrees.answers_eq (hr : r.Agrees) (os : List Operation) :
    answers Racer.act r os = answers Plain.act r.plain os := by
  induction os generalizing r with
  | nil => rfl
  | cons o os ih => rw [answers, answers, hr.plain_act, ih (hr.act o)]

/-- Whatever is asked of a new countdown, its two parts answer as the one does. -/
theorem answers_plain (os : List Operation) :
    answers Racer.act {} os = answers Plain.act {} os :=
  (agrees_of_cancelled (r := {}) (fun _ hx => absurd hx List.not_mem_nil)
    fun _ hx => absurd hx List.not_mem_nil).answers_eq os

/-- An alarm that was set again does not ring, and one that has rung cannot be cancelled. -/
example : answers act {} [.arm 5, .arm 7, .ring 0, .armed, .ring 1, .cancel, .ring 1] =
    [true, true, false, true, true, false, false] := by decide

end
end Racer
end Aftermath.Countdown
