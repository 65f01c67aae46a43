import Aftermath.Proofs.Json.Reader

/-! JSON values have one text each. What is made up of members in whatever order has them in the order
of their names, the last of each name; what is printed of a value stands for it in the grammar, so it
is read as the value, and different values are printed differently. -/

namespace Aftermath.Json

def Sorted (ms : List (String × Json)) : Prop := ms.Pairwise fun m m' => m.1 < m'.1

/-- What every JSON value is like: whole numbers fit in sixty-four bits, signed or unsigned, other
numbers are finite, and the members of objects are in order. -/
inductive Proper : Json → Prop where
  | null : Proper .null
  | bool {b : Bool} : Proper (.bool b)
  | int {n : Int} : Int64.minValue.toInt ≤ n → n < UInt64.size → Proper (.int n)
  | float {x : Float} : x.isFinite → Proper (.float x)
  | str {s : String} : Proper (.str s)
  | arr {vs : List Json} : (∀ v ∈ vs, Proper v) → Proper (.arr vs)
  | obj {ms : List (String × Json)} : Sorted ms → (∀ m ∈ ms, Proper m.2) → Proper (.obj ms)

/-- No floating-point number at any depth. -/
inductive FloatFree : Json → Prop where
  | null : FloatFree .null
  | bool {b : Bool} : FloatFree (.bool b)
  | int {n : Int} : FloatFree (.int n)
  | str {s : String} : FloatFree (.str s)
  | arr {vs : List Json} : (∀ v ∈ vs, FloatFree v) → FloatFree (.arr vs)
  | obj {ms : List (String × Json)} : (∀ m ∈ ms, FloatFree m.2) → FloatFree (.obj ms)

variable {ms ms' acc : List (String × Json)} {name n : String} {v w : Json} {r : List Char}

/-! ### Members in order -/

theorem mem_insert {m : String × Json} (h : m ∈ insert name v ms) : m = (name, v) ∨ m ∈ ms := by
  induction ms with
  | nil => exact .inl (by simpa [insert] using h)
  | cons p ms ih =>
    unfold insert at h
    split at h
    · simpa using h
    split at h
    · rcases List.mem_cons.1 h with h | h
      · exact .inl h
      · exact .inr (.tail _ h)
    · rcases List.mem_cons.1 h with h | h
      · exact .inr (h ▸ .head _)
      · exact (ih h).imp_right (.tail _)

theorem Sorted.insert (h : Sorted ms) : Sorted (insert name v ms) := by
  induction ms with
  | nil => exact List.pairwise_singleton _ _
  | cons p ms ih =>
    obtain ⟨hp, hms⟩ := List.pairwise_cons.1 h
    unfold Json.insert
    split
    · next hlt =>
      refine List.pairwise_cons.2 ⟨?_, h⟩
      rintro m (_ | ⟨_, hm⟩)
      · exact hlt
      · exact String.lt_trans hlt (hp m hm)
    split
    · next heq => exact List.pairwise_cons.2 ⟨heq ▸ hp, hms⟩
    · next hlt hne =>
      refine List.pairwise_cons.2 ⟨fun m hm => ?_, ih hms⟩
      rcases mem_insert hm with rfl | hm
      · exact Std.lt_of_le_of_ne (String.not_lt.1 hlt) (Ne.symm hne)
      · exact hp m hm

theorem lookup_cons_eq : ((name, v) :: ms).lookup n = if n = name then some v else ms.lookup n := by
  rw [List.lookup_cons]
  by_cases h : n = name
  · simp [h]
  · simp [h, beq_eq_false_iff_ne.2 h]

theorem lookup_insert : (insert name v ms).lookup n = if n = name then some v else ms.lookup n := by
  induction ms with
  | nil => exact lookup_cons_eq
  | cons p ms ih =>
    obtain ⟨m, w⟩ := p
    unfold insert
    split
    · exact lookup_cons_eq
    split
    · next heq =>
      subst heq
      simp only [lookup_cons_eq]
      split <;> rfl
    · next hne =>
      simp only [lookup_cons_eq, ih]
      split
      · next he =>
        subst he
        rw [if_neg (Ne.symm hne)]
      · rfl

/-- The last member of a name counts. -/
theorem lookup_foldl : (ms.foldl (fun acc m => insert m.1 m.2 acc) acc).lookup n =
    (ms.reverse.lookup n).or (acc.lookup n) := by
  induction ms generalizing acc with
  | nil => simp
  | cons m ms ih =>
    obtain ⟨m, w⟩ := m
    rw [List.foldl_cons, ih, List.reverse_cons, List.lookup_append, Option.or_assoc, lookup_insert,
      lookup_cons_eq]
    split <;> simp

theorem Sorted.foldl (h : Sorted acc) :
    Sorted (ms.foldl (fun acc m => Json.insert m.1 m.2 acc) acc) := by
  induction ms generalizing acc with
  | nil => exact h
  | cons m ms ih => exact ih h.insert

theorem Sorted.keys (h : Sorted ms) : (ms.map Prod.fst).Nodup := by
  refine List.pairwise_map.2 (h.imp fun hlt he => ?_)
  exact String.lt_irrefl _ (he ▸ hlt)

theorem Sorted.nodup (h : Sorted ms) : ms.Nodup := by
  refine h.imp fun hlt he => ?_
  exact String.lt_irrefl _ (he ▸ hlt)

theorem mem_of_lookup (h : ms.lookup n = some v) : (n, v) ∈ ms := by
  obtain ⟨l₁, l₂, rfl, -⟩ := List.lookup_eq_some_iff.1 h
  simp

theorem lookup_of_mem (hn : (ms.map Prod.fst).Nodup) (h : (n, v) ∈ ms) : ms.lookup n = some v := by
  induction ms with
  | nil => cases h
  | cons p ms ih =>
    obtain ⟨m, w⟩ := p
    rw [List.map_cons, List.nodup_cons] at hn
    rw [lookup_cons_eq]
    rcases List.mem_cons.1 h with he | hm
    · cases he
      exact if_pos rfl
    · have hne : n ≠ m := by
        rintro rfl
        exact hn.1 (List.mem_map.2 ⟨_, hm, rfl⟩)
      rw [if_neg hne, ih hn.2 hm]

/-- Among members with different names their order does not matter. -/
theorem lookup_perm (hp : ms.Perm ms') (hn : (ms.map Prod.fst).Nodup) :
    ms.lookup n = ms'.lookup n := by
  refine Option.ext fun v => ⟨fun h => ?_, fun h => ?_⟩
  · exact lookup_of_mem ((hp.map _).nodup_iff.1 hn) (hp.mem_iff.1 (mem_of_lookup h))
  · exact lookup_of_mem hn (hp.mem_iff.2 (mem_of_lookup h))

/-- Members in order are settled by what each name holds. -/
theorem Sorted.ext (h : Sorted ms) (h' : Sorted ms') (heq : ∀ n, ms.lookup n = ms'.lookup n) :
    ms = ms' := by
  have hmem : ∀ {m}, m ∈ ms ↔ m ∈ ms' := by
    rintro ⟨n, v⟩
    exact ⟨fun hm => mem_of_lookup (heq n ▸ lookup_of_mem h.keys hm),
      fun hm => mem_of_lookup (heq n ▸ lookup_of_mem h'.keys hm)⟩
  have hp : ms.Perm ms' := (List.perm_ext_iff_of_nodup h.nodup h'.nodup).2 fun _ => hmem
  refine hp.eq_of_pairwise (fun a b _ _ hab hba => ?_) h h'
  exact absurd hba (String.lt_asymm hab)

theorem ofMembers_congr (h : ∀ n, ms.reverse.lookup n = ms'.reverse.lookup n) :
    ofMembers ms = ofMembers ms' := by
  refine congrArg obj (Sorted.ext (.foldl .nil) (.foldl .nil) fun n => ?_)
  rw [lookup_foldl, lookup_foldl, h]

/-- Members with different names can be put together in any order. -/
theorem ofMembers_perm (hp : ms.Perm ms') (hn : (ms.map Prod.fst).Nodup) :
    ofMembers ms = ofMembers ms' := by
  refine ofMembers_congr fun n => lookup_perm ?_ ?_
  · exact ms.reverse_perm.trans (hp.trans ms'.reverse_perm.symm)
  · rwa [(ms.reverse_perm.map _).nodup_iff]

/-- A member counts for nothing if its name comes again. -/
theorem ofMembers_overwritten (hn : name ∈ ms'.map Prod.fst) :
    ofMembers (ms ++ (name, v) :: ms') = ofMembers (ms ++ ms') := by
  have hsome : (ms'.reverse.lookup name).isSome := by
    obtain ⟨m, hm, rfl⟩ := List.mem_map.1 hn
    exact List.lookup_isSome_iff.2 ⟨m, List.mem_reverse.2 hm, beq_self_eq_true _⟩
  refine ofMembers_congr fun n => ?_
  simp only [List.reverse_append, List.reverse_cons, List.lookup_append, lookup_cons_eq,
    List.lookup_nil]
  split
  · next he =>
    subst he
    obtain ⟨u, hu⟩ := Option.isSome_iff_exists.1 hsome
    rw [hu]
    rfl
  · rw [Option.or_none]

theorem mem_foldl {m : String × Json} (h : m ∈ ms.foldl (fun acc m => insert m.1 m.2 acc) acc) :
    m ∈ ms ∨ m ∈ acc := by
  induction ms generalizing acc with
  | nil => exact .inr h
  | cons p ms ih =>
    rcases ih h with hm | hm
    · exact .inl (.tail _ hm)
    · rcases mem_insert hm with rfl | hm
      · exact .inl (.head _)
      · exact .inr hm

theorem Proper.ofMembers (h : ∀ m ∈ ms, Proper m.2) : Proper (ofMembers ms) := by
  refine .obj (Sorted.foldl .nil) fun m hm => ?_
  rcases mem_foldl hm with hm | hm
  · exact h m hm
  · cases hm

theorem ofMembers_of_sorted (h : Sorted ms) : ofMembers ms = .obj ms := by
  refine congrArg obj (Sorted.ext (.foldl .nil) h fun n => ?_)
  rw [lookup_foldl, List.lookup_nil, Option.or_none]
  exact (lookup_perm ms.reverse_perm.symm h.keys).symm

/-! ### What is printed stands for its value -/

theorem decimal_toDigits (k : Nat) : decimal (Nat.toDigits 10 k) = k := by
  have hstep : (fun n d => n * 10 + (d.toNat - 48) : Nat → Char → Nat) =
      fun n d => 10 * n + (d.toNat - '0'.toNat) := by
    funext n d
    rw [Nat.mul_comm]
    rfl
  rw [decimal, hstep]
  exact Nat.ofDigitChars_ten_toDigits

/-- No digits but those of zero begin with a zero. -/
theorem toDigits_of_zero_head {k : Nat} (h : (Nat.toDigits 10 k).head? = some '0') :
    Nat.toDigits 10 k = ['0'] := by
  induction k using Nat.strongRecOn with
  | ind k ih =>
    rw [Nat.toDigits_eq_if (by decide)] at h ⊢
    split
    · next hlt =>
      rw [if_pos hlt] at h
      exact congrArg (fun c => [c]) (Option.some.inj h)
    · next hle =>
      obtain ⟨c, ds, hds⟩ := List.exists_cons_of_ne_nil (Nat.toDigits_ne_nil (b := 10) (n := k / 10))
      rw [if_neg hle, hds] at h
      have hzero := ih (k / 10) (by omega) (hds ▸ h)
      have hk := decimal_toDigits (k / 10)
      rw [hzero] at hk
      have : decimal ['0'] = 0 := rfl
      omega

theorem whole_toDigits (k : Nat) : Whole (Nat.toDigits 10 k ++ r) (Nat.toDigits 10 k) r where
  eq := rfl
  ne_nil := Nat.toDigits_ne_nil
  digit := List.all_eq_true.2 fun _ hc => Nat.isDigit_of_mem_toDigits (by decide) (by decide) hc
  zero := toDigits_of_zero_head

theorem value?_of_int {n : Int} {negative : Bool} (hneg : negative = decide (n < 0))
    (hmin : Int64.minValue.toInt ≤ n) (hmax : n < UInt64.size) :
    (⟨negative, Nat.toDigits 10 n.natAbs, none, none⟩ : Numeral).value? = some (.int n) := by
  have hint : (⟨negative, Nat.toDigits 10 n.natAbs, none, none⟩ : Numeral).int = n := by
    simp only [Numeral.int, decimal_toDigits]
    split
    · next hn => rw [hneg, decide_eq_true_eq] at hn; omega
    · next hn => rw [hneg, decide_eq_true_eq] at hn; omega
  rw [Numeral.value?, if_pos, hint]
  simp only [Numeral.isInt, hint, Option.isNone_none, Bool.true_and]
  split
  · next hn => rw [hneg] at hn; rw [hn, decide_eq_true hmin]; rfl
  · exact decide_eq_true hmax

theorem stands_int {n : Int} (hmin : Int64.minValue.toInt ≤ n) (hmax : n < UInt64.size) :
    Stands true (intChars n ++ r) (.value (.int n)) r := by
  unfold intChars
  split
  · next hneg =>
    refine .number (.negative (whole_toDigits _) .absent .absent) ?_
    exact value?_of_int (decide_eq_true hneg).symm hmin hmax
  · next hneg =>
    refine .number (.positive (whole_toDigits _) .absent .absent) ?_
    exact value?_of_int (decide_eq_false hneg).symm hmin hmax

theorem spells_quoted (s : String) : Spells true (s.toList.flatMap escape ++ '"' :: r) s.toList r :=
  spells_of_text (text_quoted _ _)

theorem stands_str (s : String) : Stands true (quoted s ++ r) (.value (.str s)) r := by
  have h := Stands.text (spells_quoted s (r := r))
  rw [String.ofList_toList] at h
  simpa [quoted] using h

theorem stands_items {vs : List Json} (hne : vs ≠ [])
    (h : ∀ v ∈ vs, ∀ r, Stands true (v.chars ++ r) (.value v) r) :
    Stands true (itemChars vs ++ ']' :: r) (.items vs) r := by
  induction vs with
  | nil => exact absurd rfl hne
  | cons v vs ih =>
    cases vs with
    | nil => exact .lastItem (.refl _) (h v (.head _) _) (.refl _)
    | cons w vs =>
      have hrest := ih (List.cons_ne_nil _ _) fun v hv => h v (.tail _ hv)
      simp only [itemChars, List.append_assoc, List.cons_append]
      exact .item (.refl _) (h v (.head _) _) (.refl _) hrest

theorem stands_members (hne : ms ≠ [])
    (h : ∀ m ∈ ms, ∀ r, Stands true (m.2.chars ++ r) (.value m.2) r) :
    Stands true (memberChars ms ++ '\x7d' :: r) (.members ms) r := by
  induction ms with
  | nil => exact absurd rfl hne
  | cons m ms ih =>
    obtain ⟨n, v⟩ := m
    have hv := h (n, v) (.head _)
    have hname : n = .ofList n.toList := String.ofList_toList.symm
    cases ms with
    | nil =>
      have hm := Stands.lastMember (.refl _) (spells_quoted n) (.refl _) (.refl _)
        (hv ('\x7d' :: r)) (.refl _)
      rw [← hname] at hm
      simpa [memberChars, quoted] using hm
    | cons m ms =>
      have hrest := ih (List.cons_ne_nil _ _) fun v hv => h v (.tail _ hv)
      have hm := Stands.member (.refl _) (spells_quoted n) (.refl _) (.refl _)
        (hv (',' :: _)) (.refl _) hrest
      rw [← hname] at hm
      simpa [memberChars, quoted] using hm

/-- What is printed of a value stands for it, whatever follows. -/
theorem FloatFree.stands (hf : FloatFree v) (hp : Proper v) :
    ∀ r, Stands true (v.chars ++ r) (.value v) r := by
  induction hf with
  | null => exact fun r => .nullWord
  | @bool b =>
    cases b with
    | false => exact fun r => .falseWord
    | true => exact fun r => .trueWord
  | int =>
    cases hp with
    | int hmin hmax => exact fun r => stands_int hmin hmax
  | str => exact fun r => stands_str _
  | @arr vs _ ih =>
    intro r
    cases hp with
    | arr hp =>
      cases vs with
      | nil => exact .noItems (.refl _)
      | cons v vs =>
        have hi := stands_items (r := r) (List.cons_ne_nil v vs) fun w hw => ih w hw (hp w hw)
        simpa [chars] using Stands.array hi
  | @obj ms _ ih =>
    intro r
    cases hp with
    | obj hs hp =>
      cases ms with
      | nil => exact .noMembers (.refl _)
      | cons m ms =>
        have hm := stands_members (r := r) (List.cons_ne_nil m ms) fun w hw => ih w hw (hp w hw)
        simpa [chars, ofMembers_of_sorted hs] using Stands.object hm

/-- A value is read back from its text, so no other has that text. -/
theorem read_render (hf : FloatFree v) (hp : Proper v) : read v.render = .ok v := by
  have hchars : Spaced v.render.toList v.chars := by
    rw [render, String.toList_ofList]
    exact .refl _
  have hstands := hf.stands hp []
  rw [List.append_nil] at hstands
  exact read_of_stands hchars hstands (.refl [])

theorem render_inj (hf : FloatFree v) (hp : Proper v) (hf' : FloatFree w) (hp' : Proper w) :
    v.render = w.render ↔ v = w := by
  constructor
  · intro h
    have hread := read_render hf hp
    rw [h, read_render hf' hp'] at hread
    exact (Except.ok.inj hread).symm
  · rintro rfl
    rfl

end Aftermath.Json
