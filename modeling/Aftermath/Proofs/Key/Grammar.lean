import Aftermath.Proofs.Key.RoundTrip
import Aftermath.Proofs.Json.Reader

/-! The texts that hold a key: an object in which each member of a key occurs once, among others that
do not matter, or an array of three strings. Nothing else about the text matters: not the order of the
members, the white space, the way a string is escaped or what the other members hold. -/

namespace Aftermath

open Json (Spaced Spells WellFormed Ends)

namespace Key

/-! ### The grammar -/

/-- A member of an object from behind the quote that opens its name: a member of a key with its text,
or one of another name, which holds anything. -/
inductive Entry : List Char → Option (Member × String) → List Char → Prop where
  | known {m : Member} {s : String} {cs cs₁ cs₂ cs₃ r} : Spells true cs m.name.toList cs₁ →
      Spaced cs₁ (':' :: cs₂) → Spaced cs₂ ('"' :: cs₃) → Spells true cs₃ s.toList r →
      Entry cs (some (m, s)) r
  | other {n cs cs₁ cs₂ cs₃ r} : Spells true cs n cs₁ → (∀ m : Member, n ≠ m.name.toList) →
      Spaced cs₁ (':' :: cs₂) → Spaced cs₂ cs₃ → WellFormed cs₃ r → Entry cs none r

/-- Members from behind the quote that opens the first name to behind the closing brace, and those of
them that belong to a key. -/
inductive Entries : List Char → List (Member × String) → List Char → Prop where
  | last {cs e cs₁ r} : Entry cs e cs₁ → Spaced cs₁ ('\x7d' :: r) → Entries cs e.toList r
  | more {cs e cs₁ cs₂ cs₃ es r} : Entry cs e cs₁ → Spaced cs₁ (',' :: cs₂) →
      Spaced cs₂ ('"' :: cs₃) → Entries cs₃ es r → Entries cs (e.toList ++ es) r

inductive Object (cs : List Char) : List (Member × String) → Prop where
  | empty {cs₁ r} : Spaced cs ('\x7b' :: cs₁) → Spaced cs₁ ('\x7d' :: r) → Spaced r [] → Object cs []
  | entries {cs₁ cs₂ es r} : Spaced cs ('\x7b' :: cs₁) → Spaced cs₁ ('"' :: cs₂) →
      Entries cs₂ es r → Spaced r [] → Object cs es

inductive Triple (cs : List Char) (k : Key) : Prop where
  | mk {c₁ c₂ c₃ c₄ c₅ c₆ c₇ c₈ c₉ r} : Spaced cs ('[' :: c₁) → Spaced c₁ ('"' :: c₂) →
      Spells true c₂ k.type.toList c₃ → Spaced c₃ (',' :: c₄) → Spaced c₄ ('"' :: c₅) →
      Spells true c₅ k.field.toList c₆ → Spaced c₆ (',' :: c₇) → Spaced c₇ ('"' :: c₈) →
      Spells true c₈ k.value.toList c₉ → Spaced c₉ (']' :: r) → Spaced r [] → Triple cs k

def entries (k : Key) : List (Member × String) :=
  [(.type, k.type), (.field, k.field), (.value, k.value)]

/-- The texts that hold a key. -/
def Holds (cs : List Char) (k : Key) : Prop :=
  (∃ es, Object cs es ∧ es.Perm k.entries) ∨ Triple cs k

/-! ### Parts of the reader -/

section
variable {cs r : List Char} {s : String} {α : Type}

theorem lift_ok_iff {x : Except Json.Fault α} {a : α} : ReadError.lift x = .ok a ↔ x = .ok a := by
  cases x with
  | error e => simp [ReadError.lift]
  | ok b => simp [ReadError.lift]

theorem readText_ok_iff {expected : String} : readText expected cs = .ok (s, r) ↔
    ∃ cs₁, Spaced cs ('"' :: cs₁) ∧ Spells true cs₁ s.toList r := by
  unfold readText
  constructor
  · intro h
    split at h
    · next cs₁ hs =>
      obtain ⟨⟨t, u⟩, ht, he⟩ := map_ok_iff.1 h
      cases he
      refine ⟨cs₁, Json.spaced_of_skipSpace hs, ?_⟩
      rw [String.toList_ofList]
      exact Json.spells_of_text (lift_ok_iff.1 ht)
    · split at h
      · cases h
      · cases h
  · rintro ⟨cs₁, hs, ht⟩
    rw [hs.skipSpace_cons rfl]
    simp only [ht.text_eq, ReadError.lift, Except.map, String.ofList_toList]

theorem readColon_ok_iff : readColon cs = .ok r ↔ Spaced cs (':' :: r) := by
  unfold readColon
  constructor
  · intro h
    split at h
    · cases h
    · next hs => cases h; exact Json.spaced_of_skipSpace hs
    · cases h
  · intro h
    simp only [h.skipSpace_cons rfl]

theorem Member.ofName?_eq_some_iff {m : Member} : Member.ofName? s = some m ↔ s = m.name := by
  constructor
  · intro h
    have hm := List.find?_some h
    exact (eq_of_beq hm).symm
  · rintro rfl
    exact Member.ofName?_name m

theorem Member.ofName?_eq_none_iff {n : List Char} :
    Member.ofName? (.ofList n) = none ↔ ∀ m : Member, n ≠ m.name.toList := by
  rw [Option.eq_none_iff_forall_not_mem]
  refine forall_congr' fun m => not_congr ?_
  rw [Option.mem_def, Member.ofName?_eq_some_iff, ← String.toList_inj, String.toList_ofList]

end

/-! ### What the grammar allows is read -/

/-- A member taken into a draft, unless it is there already. -/
def take (d : Draft) (p : Member × String) : Except ReadError Draft :=
  if (d.get? p.1).isSome then .error (.misfit (.duplicate p.1)) else .ok (d.set p.1 p.2)

/-- The key that members make up which are taken one after the other. -/
def collect (es : List (Member × String)) : Except ReadError Key :=
  es.foldlM take {} >>= Draft.key

section
variable {cs cs' r : List Char} {s : String} {k : Key} {d d' : Draft} {fuel : Nat}
  {e : Option (Member × String)} {es : List (Member × String)}

theorem Entry.length_lt (h : Entry cs e r) : r.length < cs.length := by
  cases h with
  | known hn hc hq hs =>
    have := hn.length_lt
    have := hc.length_le
    have := hq.length_le
    have := hs.length_lt
    simp only [List.length_cons] at *
    omega
  | other hn _ hc hsp hv =>
    obtain ⟨v, hv⟩ := hv
    have := hn.length_lt
    have := hc.length_le
    have := hsp.length_le
    have := hv.length_lt
    simp only [List.length_cons] at *
    omega

theorem readMember_of_entry (h : Entry cs e r) (hr : Ends r) :
    readMember d cs = (e.toList.foldlM take d).map fun d => (d, r) := by
  unfold readMember
  cases h with
  | @known m s _ _ _ _ _ hn hc hq hs =>
    simp only [hn.text_eq, ReadError.lift, bind, Except.bind, String.ofList_toList,
      Member.ofName?_name, readColon_ok_iff.2 hc, readText_ok_iff.2 ⟨_, hq, hs⟩]
    cases hd : (d.get? m).isSome <;> simp [take, hd] <;> rfl
  | other hn hne hc hsp hv =>
    simp only [hn.text_eq, ReadError.lift, bind, Except.bind, Member.ofName?_eq_none_iff.2 hne,
      readColon_ok_iff.2 hc, Json.skipValue_of_wellFormed hv hr hsp]
    rfl

theorem readMembers_of_entries (h : Entries cs es r) (hf : cs.length < fuel) :
    readMembers fuel d cs = (es.foldlM take d).map fun d => (d, r) := by
  induction h generalizing d fuel with
  | last he hc =>
    cases fuel with
    | zero => omega
    | succ fuel =>
      rw [readMembers, readMember_of_entry he (hc.ends (Json.ends_separator (by simp)))]
      cases List.foldlM take d _ with
      | error x => rfl
      | ok d' =>
        simp only [Except.map, bind, Except.bind, hc.skipSpace_cons rfl]
        rfl
  | @more _ _ _ _ _ es _ he hc hq _ ih =>
    cases fuel with
    | zero => omega
    | succ fuel =>
      have hl := he.length_lt
      have hl' := hc.length_le
      have hl'' := hq.length_le
      simp only [List.length_cons] at hl' hl''
      rw [readMembers, readMember_of_entry he (hc.ends (Json.ends_separator (by simp))),
        List.foldlM_append]
      cases List.foldlM take d _ with
      | error x => rfl
      | ok d' =>
        simp only [Except.map, bind, Except.bind, hc.skipSpace_cons rfl, hq.skipSpace_cons rfl]
        exact ih (by omega)

/-- The members of an object make up the key, or fail to. -/
theorem Object.read_eq (h : Object s.toList es) : read s = collect es := by
  have hfin : ∀ {cs : List Char}, Spaced cs [] → ∀ k : Key, Json.finish k cs = .ok k :=
    fun hr k => Json.finish_ok_iff.2 ⟨hr, rfl⟩
  unfold read readObject
  cases h with
  | empty ho hc hr =>
    simp only [ho.skipSpace_cons rfl, hc.skipSpace_cons rfl]
    rfl
  | entries ho hq hes hr =>
    simp only [ho.skipSpace_cons rfl, hq.skipSpace_cons rfl,
      readMembers_of_entries hes (Nat.lt_succ_self _), collect]
    cases List.foldlM take {} es with
    | error x => rfl
    | ok d =>
      simp only [Except.map, bind, Except.bind]
      cases d.key with
      | error x => rfl
      | ok k => simp only [pure, Except.pure, hfin hr, ReadError.lift]

theorem readElement_zero (hs : Spaced cs ('"' :: r)) (ht : Spells true r s.toList cs') :
    readElement 0 cs = .ok (s, cs') := by
  simp only [readElement, hs.skipSpace_cons rfl, if_pos]
  exact readText_ok_iff.2 ⟨_, .refl _, ht⟩

theorem readElement_succ {n : Nat} {cs₁ : List Char} (hc : Spaced cs (',' :: cs₁))
    (hs : Spaced cs₁ ('"' :: r)) (ht : Spells true r s.toList cs') :
    readElement (n + 1) cs = .ok (s, cs') := by
  have hread : readElement (n + 1) cs = readText "a string" ('"' :: r) := by
    unfold readElement
    rw [hc.skipSpace_cons rfl]
    simp [hs.skipSpace_cons rfl]
  exact hread.trans (readText_ok_iff.2 ⟨_, .refl _, ht⟩)

theorem Triple.read_eq (h : Triple s.toList k) : read s = .ok k := by
  obtain ⟨ho, ht₁, ht₂, hf₁, hf₂, hf₃, hv₁, hv₂, hv₃, hc, hr⟩ := h
  unfold read readArray
  simp only [ho.skipSpace_cons rfl, readElement_zero ht₁ ht₂, readElement_succ hf₁ hf₂ hf₃,
    readElement_succ hv₁ hv₂ hv₃, hc.skipSpace_cons rfl, bind, Except.bind]
  simp only [pure, Except.pure, Json.finish_ok_iff.2 ⟨hr, rfl⟩, ReadError.lift]

/-! ### Nothing else is read -/

theorem entry_of_readMember (h : readMember d cs = .ok (d', r)) :
    ∃ e, Entry cs e r ∧ e.toList.foldlM take d = .ok d' := by
  unfold readMember at h
  obtain ⟨⟨n, cs₁⟩, hn, h⟩ := bind_ok_iff.1 h
  have hn := Json.spells_of_text (lift_ok_iff.1 hn)
  dsimp only at h
  split at h
  · next m hm =>
    -- A member of a key; that it is new comes before its text.
    split at h
    · cases h
    · next hd =>
      obtain ⟨cs₂, hc, h⟩ := bind_ok_iff.1 h
      obtain ⟨⟨t, cs₃⟩, ht, h⟩ := bind_ok_iff.1 h
      obtain ⟨cs₄, hq, ht⟩ := readText_ok_iff.1 ht
      cases h
      have hname : n = m.name.toList := by
        rw [← Member.ofName?_eq_some_iff.1 hm, String.toList_ofList]
      subst hname
      exact ⟨_, .known hn (readColon_ok_iff.1 hc) hq ht, by simp [take, hd]⟩
  · next hm =>
    obtain ⟨cs₂, hc, h⟩ := bind_ok_iff.1 h
    obtain ⟨cs₃, hv, h⟩ := bind_ok_iff.1 h
    cases h
    have hv := Json.wellFormed_of_skipValue (lift_ok_iff.1 hv)
    exact ⟨_, .other hn (Member.ofName?_eq_none_iff.1 hm) (readColon_ok_iff.1 hc)
      (Json.spaced_skipSpace _) hv, rfl⟩

theorem entries_of_readMembers (h : readMembers fuel d cs = .ok (d', r)) :
    ∃ es, Entries cs es r ∧ es.foldlM take d = .ok d' := by
  induction fuel generalizing d cs with
  | zero => cases h
  | succ fuel ih =>
    rw [readMembers] at h
    obtain ⟨⟨d₁, cs₁⟩, hm, h⟩ := bind_ok_iff.1 h
    obtain ⟨e, he, hd⟩ := entry_of_readMember hm
    dsimp only at h
    split at h
    · cases h
    · next hc =>
      cases h
      exact ⟨_, .last he (Json.spaced_of_skipSpace hc), hd⟩
    · next hc =>
      split at h
      · cases h
      · next hq =>
        obtain ⟨es, hes, hds⟩ := ih h
        refine ⟨_, .more he (Json.spaced_of_skipSpace hc) (Json.spaced_of_skipSpace hq) hes, ?_⟩
        rw [List.foldlM_append, hd]
        exact hds
      · cases h
    · cases h

theorem object_of_readObject (ho : Spaced s.toList ('\x7b' :: cs)) (h : readObject cs = .ok (k, r))
    (hr : Spaced r []) : ∃ es, Object s.toList es ∧ collect es = .ok k := by
  unfold readObject at h
  dsimp only at h
  split at h
  · cases h
  · next hc =>
    obtain ⟨_, hd, h⟩ := bind_ok_iff.1 h
    cases hd
    obtain ⟨k, hk, h⟩ := bind_ok_iff.1 h
    cases h
    exact ⟨_, .empty ho (Json.spaced_of_skipSpace hc) hr, hk⟩
  · next hq =>
    obtain ⟨⟨d, cs₁⟩, hm, h⟩ := bind_ok_iff.1 h
    obtain ⟨k, hk, h⟩ := bind_ok_iff.1 h
    cases h
    obtain ⟨es, hes, hd⟩ := entries_of_readMembers hm
    exact ⟨es, .entries ho (Json.spaced_of_skipSpace hq) hes hr, bind_ok_iff.2 ⟨d, hd, hk⟩⟩
  · cases h

theorem text_of_readElement_zero (h : readElement 0 cs = .ok (s, r)) :
    ∃ cs₁, Spaced cs ('"' :: cs₁) ∧ Spells true cs₁ s.toList r := by
  unfold readElement at h
  split at h
  · cases h
  · cases h
  · next hs =>
    rw [if_pos rfl] at h
    obtain ⟨cs₁, hq, ht⟩ := readText_ok_iff.1 h
    exact ⟨cs₁, (hs ▸ Json.spaced_skipSpace cs).trans hq, ht⟩

theorem text_of_readElement_succ {n : Nat} (h : readElement (n + 1) cs = .ok (s, r)) :
    ∃ cs₁ cs₂, Spaced cs (',' :: cs₁) ∧ Spaced cs₁ ('"' :: cs₂) ∧ Spells true cs₂ s.toList r := by
  unfold readElement at h
  split at h
  · cases h
  · cases h
  · next hs =>
    rw [if_neg (Nat.succ_ne_zero n)] at h
    split at h
    · next hc =>
      subst hc
      split at h
      · cases h
      · obtain ⟨cs₂, hq, ht⟩ := readText_ok_iff.1 h
        exact ⟨_, cs₂, Json.spaced_of_skipSpace hs, (Json.spaced_skipSpace _).trans hq, ht⟩
    · cases h

theorem triple_of_readArray (ho : Spaced s.toList ('[' :: cs)) (h : readArray cs = .ok (k, r))
    (hr : Spaced r []) : Triple s.toList k := by
  unfold readArray at h
  obtain ⟨⟨t, cs₁⟩, ht, h⟩ := bind_ok_iff.1 h
  obtain ⟨⟨f, cs₂⟩, hf, h⟩ := bind_ok_iff.1 h
  obtain ⟨⟨v, cs₃⟩, hv, h⟩ := bind_ok_iff.1 h
  obtain ⟨_, ht₁, ht₂⟩ := text_of_readElement_zero ht
  obtain ⟨_, _, hf₁, hf₂, hf₃⟩ := text_of_readElement_succ hf
  obtain ⟨_, _, hv₁, hv₂, hv₃⟩ := text_of_readElement_succ hv
  dsimp only at h
  split at h
  · cases h
  · next hc =>
    cases h
    exact ⟨ho, ht₁, ht₂, hf₁, hf₂, hf₃, hv₁, hv₂, hv₃, Json.spaced_of_skipSpace hc, hr⟩
  · cases h

/-- A text that is read is an object whose members make up the key, or an array of its strings. -/
theorem object_or_triple_of_read (h : read s = .ok k) :
    (∃ es, Object s.toList es ∧ collect es = .ok k) ∨ Triple s.toList k := by
  unfold read at h
  dsimp only at h
  split at h
  · next ho =>
    obtain ⟨⟨k', cs⟩, hk, h⟩ := bind_ok_iff.1 h
    obtain ⟨hr, rfl⟩ := Json.finish_ok_iff.1 (lift_ok_iff.1 h)
    exact .inl (object_of_readObject (Json.spaced_of_skipSpace ho) hk hr)
  · next ho =>
    obtain ⟨⟨k', cs⟩, hk, h⟩ := bind_ok_iff.1 h
    obtain ⟨hr, rfl⟩ := Json.finish_ok_iff.1 (lift_ok_iff.1 h)
    exact .inr (triple_of_readArray (Json.spaced_of_skipSpace ho) hk hr)
  · split at h
    · cases h
    · cases h

/-! ### The members that make up a key -/

theorem Draft.get?_set {m m' : Member} :
    (d.set m s).get? m' = if m = m' then some s else d.get? m' := by
  cases m <;> cases m' <;> rfl

theorem Draft.eq_of_get? (h : ∀ m, d.get? m = d'.get? m) : d = d' := by
  obtain ⟨t, f, v⟩ := d
  obtain ⟨t', f', v'⟩ := d'
  obtain ⟨ht, hf, hv⟩ : t = t' ∧ f = f' ∧ v = v' := ⟨h .type, h .field, h .value⟩
  rw [ht, hf, hv]

def draft (k : Key) : Draft := ⟨some k.type, some k.field, some k.value⟩

theorem draft_get? {m : Member} : k.draft.get? m = some s ↔ (m, s) ∈ k.entries := by
  cases m <;> simp [draft, entries, Draft.get?, eq_comm]

theorem Draft.key_ok_iff : d.key = .ok k ↔ d = k.draft := by
  constructor
  · intro h
    obtain ⟨_ | t, _ | f, _ | v⟩ := d <;> cases h
    rfl
  · rintro rfl
    rfl

theorem take_ok_iff {p : Member × String} :
    take d p = .ok d' ↔ d.get? p.1 = none ∧ d.set p.1 p.2 = d' := by
  unfold take
  cases h : d.get? p.1 with
  | none => simp
  | some s => simp

theorem Draft.get?_set_eq_some {m m₀ : Member} {s₀ : String} (hd : d.get? m₀ = none) :
    (d.set m₀ s₀).get? m = some s ↔ d.get? m = some s ∨ (m, s) = (m₀, s₀) := by
  rw [Draft.get?_set]
  split
  · next h =>
    subst h
    simp [hd, eq_comm]
  · next h => simp [Ne.symm h]

theorem Draft.free_set_iff {m₀ : Member} {s₀ : String} :
    (∀ p ∈ es, (d.set m₀ s₀).get? p.1 = none) ↔
      m₀ ∉ es.map Prod.fst ∧ ∀ p ∈ es, d.get? p.1 = none := by
  simp only [Draft.get?_set, List.mem_map, not_exists, not_and, ← forall_and]
  refine forall_congr' fun p => ?_
  split
  · next h => simp [h]
  · next h => simp [Ne.symm h]

/-- Members are taken if none of them is there already and each of them comes once. -/
theorem foldlM_take_ok_iff : es.foldlM take d = .ok d' ↔ (∀ p ∈ es, d.get? p.1 = none) ∧
    (es.map Prod.fst).Nodup ∧ ∀ m s, d'.get? m = some s ↔ d.get? m = some s ∨ (m, s) ∈ es := by
  induction es generalizing d with
  | nil =>
    have : d = d' ↔ ∀ m s, d'.get? m = some s ↔ d.get? m = some s :=
      ⟨fun h _ _ => h ▸ Iff.rfl, fun h => Draft.eq_of_get? fun m => Option.ext fun s => (h m s).symm⟩
    simpa [pure, Except.pure] using this
  | cons p es ih =>
    obtain ⟨m₀, s₀⟩ := p
    rw [List.foldlM_cons, bind_ok_iff]
    simp only [take_ok_iff, ih, List.map_cons, List.nodup_cons, List.forall_mem_cons]
    constructor
    · rintro ⟨_, ⟨hd, rfl⟩, hfree, hnodup, hget⟩
      obtain ⟨hnew, hfree⟩ := Draft.free_set_iff.1 hfree
      refine ⟨⟨hd, hfree⟩, ⟨hnew, hnodup⟩, fun m s => ?_⟩
      rw [hget, Draft.get?_set_eq_some hd, or_assoc, List.mem_cons]
    · rintro ⟨⟨hd, hfree⟩, ⟨hnew, hnodup⟩, hget⟩
      refine ⟨_, ⟨hd, rfl⟩, Draft.free_set_iff.2 ⟨hnew, hfree⟩, hnodup, fun m s => ?_⟩
      rw [hget, Draft.get?_set_eq_some hd, or_assoc, List.mem_cons]

theorem entries_nodup (k : Key) : (k.entries.map Prod.fst).Nodup := by simp [entries]

theorem nodup_of_keys (h : (es.map Prod.fst).Nodup) : es.Nodup :=
  List.Pairwise.of_map Prod.fst (fun _ _ hne he => hne (congrArg _ he)) h

/-- Members make up a key if they are the members of the key, in whatever order. -/
theorem collect_ok_iff : collect es = .ok k ↔ es.Perm k.entries := by
  have hnone : ∀ m, ({} : Draft).get? m = none := by
    intro m
    cases m <;> rfl
  simp only [collect, bind_ok_iff, Draft.key_ok_iff, exists_eq_right, foldlM_take_ok_iff, hnone,
    draft_get?]
  constructor
  · rintro ⟨-, hnodup, hget⟩
    refine (List.perm_ext_iff_of_nodup (nodup_of_keys hnodup) (nodup_of_keys k.entries_nodup)).2 ?_
    rintro ⟨m, s⟩
    simpa using (hget m s).symm
  · intro h
    refine ⟨fun _ _ => trivial, (h.map Prod.fst).nodup_iff.2 k.entries_nodup, fun m s => ?_⟩
    rw [h.mem_iff]
    simp

end

/-- A text is read as a key if and only if it holds the key. What its members of a key are settles
this for an object; their order is free, and so is all else in the text. -/
theorem read_is_what_text_holds : (∀ s k, read s = .ok k ↔ Holds s.toList k) ∧
    ∀ s s' es es', Object s.toList es → Object s'.toList es' → es.Perm es' →
      ∀ k, read s = .ok k ↔ read s' = .ok k := by
  constructor
  · intro s k
    constructor
    · intro h
      rcases object_or_triple_of_read h with ⟨es, ho, hk⟩ | ht
      · exact .inl ⟨es, ho, collect_ok_iff.1 hk⟩
      · exact .inr ht
    · rintro (⟨es, ho, hp⟩ | ht)
      · exact ho.read_eq.trans (collect_ok_iff.2 hp)
      · exact ht.read_eq
  · intro s s' es es' ho ho' hp k
    rw [ho.read_eq, ho'.read_eq, collect_ok_iff, collect_ok_iff]
    exact ⟨hp.symm.trans, hp.trans⟩

def plainText : String :=
  "\x7b\"event_type\":\"e\",\"field\":\"f\",\"value\":\"v\"\x7d"

/-- The same key among white space, escapes and members of another name, which come twice, nested, with
a number that is too large and with half a surrogate pair. -/
def fullText : String :=
  " \x7b\"x\":[1e999,\x7b\"\\ud800\":0\x7d], \"field\" :\"\\u0066\",\"x\":0,\"event\\u005ftype\":\"e\",\"value\":\"v\"\x7d "

theorem full_text_is_read_as_plain : ∃ es es', Object plainText.toList es ∧ Object fullText.toList es' ∧
    es.Perm es' ∧ (∀ k, read plainText = .ok k ↔ read fullText = .ok k) ∧
    Holds fullText.toList ⟨"e", "f", "v"⟩ := by
  have hplain : plainText.toList = '\x7b' :: plainText.toList.tail := by
    unfold plainText
    rw [String.toList_ofList]
    rfl
  have hfull : fullText.toList = ' ' :: '\x7b' :: fullText.toList.tail.tail := by
    unfold fullText
    rw [String.toList_ofList]
    rfl
  obtain ⟨es, ho, hk⟩ := object_of_readObject (k := ⟨"e", "f", "v"⟩) (r := []) ⟨[], hplain, rfl⟩
    (by unfold plainText; rw [String.toList_ofList]; rfl) (.refl _)
  obtain ⟨es', ho', hk'⟩ :=
    object_of_readObject (k := ⟨"e", "f", "v"⟩) (r := [' ']) ⟨[' '], hfull, rfl⟩
    (by unfold fullText; rw [String.toList_ofList]; rfl) ⟨[' '], rfl, rfl⟩
  have hp := (collect_ok_iff.1 hk).trans (collect_ok_iff.1 hk').symm
  have hread := read_is_what_text_holds.2 _ _ _ _ ho ho' hp
  have hholds := (read_is_what_text_holds.1 plainText _).2 (.inl ⟨es, ho, collect_ok_iff.1 hk⟩)
  exact ⟨es, es', ho, ho', hp, hread, (read_is_what_text_holds.1 _ _).1 ((hread _).1 hholds)⟩

end Key
end Aftermath
