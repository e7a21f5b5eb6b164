import Whereabouts.Proofs.Json.Record

/-! The members of objects. Fields are found by their names, so that neither the order of members
nor those with other names matter. -/
namespace Whereabouts.Json

/-- No object has two members of one name. -/
inductive Distinct : Json → Prop
  | null : Distinct null
  | bool (b : Bool) : Distinct (bool b)
  | number (n : Numeral) : Distinct (number n)
  | text (s : Option String) : Distinct (text s)
  | array {js : List Json} : (∀ j ∈ js, Distinct j) → Distinct (array js)
  | object {ms : List (Option String × Json)} :
      (ms.filterMap (·.1)).Nodup → (∀ m ∈ ms, Distinct m.2) → Distinct (object ms)

/-- The same value but for the order of members in its objects. -/
inductive Rearranged : Json → Json → Prop
  | refl (j : Json) : Rearranged j j
  | members {ms ms' : List (Option String × Json)} :
      ms.Perm ms' → Rearranged (object ms) (object ms')
  | item {j j' : Json} (before after : List Json) :
      Rearranged j j' → Rearranged (array (before ++ j :: after)) (array (before ++ j' :: after))
  | member {j j' : Json} (before after : List (Option String × Json)) (k : Option String) :
      Rearranged j j' →
        Rearranged (object (before ++ (k, j) :: after)) (object (before ++ (k, j') :: after))
  | trans {j j' j'' : Json} : Rearranged j j' → Rearranged j' j'' → Rearranged j j''

namespace Rearranged

theorem distinct {j j' : Json} (h : Rearranged j j') (hj : Distinct j) : Distinct j' := by
  induction h with
  | refl => exact hj
  | members hperm =>
    cases hj with
    | object hnames hvalues =>
      exact .object ((hperm.filterMap _).nodup_iff.mp hnames)
        fun m hm => hvalues m (hperm.mem_iff.mpr hm)
  | item before after _ ih =>
    cases hj with
    | array hitems =>
      simp only [List.forall_mem_append, List.forall_mem_cons] at hitems
      refine .array ?_
      simp only [List.forall_mem_append, List.forall_mem_cons]
      exact ⟨hitems.1, ih hitems.2.1, hitems.2.2⟩
  | member before after k _ ih =>
    cases hj with
    | object hnames hvalues =>
      simp only [List.forall_mem_append, List.forall_mem_cons] at hvalues
      refine .object (by simpa [List.filterMap_cons] using hnames) ?_
      simp only [List.forall_mem_append, List.forall_mem_cons]
      exact ⟨hvalues.1, ih hvalues.2.1, hvalues.2.2⟩
  | trans _ _ ih ih' => exact ih' (ih hj)

/-- Only objects, and arrays that hold some, can be rearranged. -/
lemma eq_of_plain {j j' : Json} (h : Rearranged j j') (hobject : ∀ ms, j ≠ object ms)
    (harray : ∀ js, j ≠ array js) : j' = j := by
  induction h with
  | refl => rfl
  | members => exact absurd rfl (hobject _)
  | item => exact absurd rfl (harray _)
  | member => exact absurd rfl (hobject _)
  | trans _ _ ih ih' =>
    obtain rfl := ih hobject harray
    exact ih' hobject harray

lemma symm {j j' : Json} (h : Rearranged j j') : Rearranged j' j := by
  induction h with
  | refl => exact .refl _
  | members hperm => exact .members hperm.symm
  | item before after _ ih => exact .item before after ih
  | member before after k _ ih => exact .member before after k ih
  | trans _ _ ih ih' => exact .trans ih' ih

lemma eq_null_iff {j j' : Json} (h : Rearranged j j') : j = null ↔ j' = null := by
  constructor
  · rintro rfl
    exact h.eq_of_plain nofun nofun
  · rintro rfl
    exact h.symm.eq_of_plain nofun nofun

/-- The long form of an alternative stays as it is. -/
lemma eq_of_alternative {j j' : Json} (h : Rearranged j j') {k : Option String}
    (hj : j = object [(k, null)]) : j' = j := by
  induction h with
  | refl => rfl
  | members hperm =>
    obtain rfl := object.inj hj
    rw [List.singleton_perm.mp hperm]
  | item => cases hj
  | member before after k' hvalue _ =>
    cases before with
    | nil =>
      obtain ⟨⟨rfl, rfl⟩, rfl⟩ : (k' = k ∧ _ = null) ∧ after = [] := by simpa using hj
      rw [hvalue.eq_null_iff.mp rfl]
    | cons m before => simp at hj
  | trans _ _ ih ih' =>
    obtain rfl := ih hj
    exact ih' hj

end Rearranged

/-- A reader that takes a value also takes it, for the same, with its members in another order. -/
def Unordered {α : Type} (read : Json → Option α) : Prop :=
  ∀ {j j' : Json} {x : α}, Rearranged j j' → Distinct j → read j = some x → read j' = some x

lemma nullable?_of_ne_null {α : Type} {read : Json → Option α} {j : Json} (h : j ≠ null) :
    nullable? read j = (read j).map some := by
  unfold nullable?
  split
  · exact absurd rfl h
  · rfl

namespace Unordered

variable {α β : Type} {read : Json → Option α}

/-- Readers of plain values. -/
lemma of_plain (hobject : ∀ ms, read (object ms) = none) (harray : ∀ js, read (array js) = none) :
    Unordered read := by
  intro j j' x h _ hx
  have hplain : j' = j := by
    refine h.eq_of_plain (fun ms hms => ?_) (fun js hjs => ?_)
    · rw [hms, hobject] at hx
      cases hx
    · rw [hjs, harray] at hx
      cases hx
  rw [hplain, hx]

lemma nullable (hread : Unordered read) : Unordered (nullable? read) := by
  intro j j' o h hj ho
  by_cases hnull : j = null
  · rw [h.eq_null_iff.mp hnull, ← ho, hnull]
  · have hnull' : j' ≠ null := mt h.eq_null_iff.mpr hnull
    rw [nullable?_of_ne_null hnull] at ho
    obtain ⟨x, hx, rfl⟩ := Option.map_eq_some_iff.mp ho
    rw [nullable?_of_ne_null hnull', hread h hj hx]
    rfl

lemma bind {next : α → Option β} (hread : Unordered read) :
    Unordered fun j => (read j).bind next := by
  intro j j' y h hj hy
  obtain ⟨x, hx, hy⟩ := Option.bind_eq_some_iff.mp hy
  exact Option.bind_eq_some_iff.mpr ⟨x, hread h hj hx, hy⟩

lemma choice : Unordered choice? := by
  intro j j' s h _ hs
  unfold choice? at hs
  split at hs
  · rw [h.eq_of_plain nofun nofun]
    exact hs
  · rw [h.eq_of_alternative rfl]
    exact hs
  · cases hs

end Unordered

/-- Reading all elements of a list leaves none out. -/
lemma mapM_eq_some_iff {α β : Type} {f : α → Option β} {as : List α} {bs : List β} :
    as.mapM f = some bs ↔ (∀ a ∈ as, (f a).isSome = true) ∧ as.filterMap f = bs := by
  induction as generalizing bs with
  | nil => simp
  | cons a as ih =>
    cases ha : f a with
    | none => simp [ha]
    | some b =>
      have hcons : (a :: as).mapM f = (as.mapM f).map (b :: ·) := by
        rw [List.mapM_cons, ha]
        cases as.mapM f <;> rfl
      rw [hcons, List.filterMap_cons_some ha, Option.map_eq_some_iff]
      constructor
      · rintro ⟨bs', hbs', rfl⟩
        obtain ⟨hall, rfl⟩ := ih.mp hbs'
        exact ⟨List.forall_mem_cons.mpr ⟨by simp [ha], hall⟩, rfl⟩
      · rintro ⟨hall, rfl⟩
        exact ⟨_, ih.mpr ⟨(List.forall_mem_cons.mp hall).2, rfl⟩, rfl⟩

namespace Fields

/-- The first member of each name. -/
def among (ms : List (Option String × Json)) : Fields :=
  fun n => (ms.find? (·.1 == some n)).map (·.2)

variable {before after : List (Option String × Json)} {n m : String} {j : Json}

/-- A member is not found under another name. -/
lemma among_insert_of_ne (h : m ≠ n) :
    among (before ++ (some n, j) :: after) m = among (before ++ after) m := by
  have hhead : ((some n, j) :: after).find? (·.1 == some m) = after.find? (·.1 == some m) :=
    List.find?_cons_of_neg (by simpa using h.symm)
  rw [among, among, List.find?_append, List.find?_append, hhead]

/-- A member is found under its own, if it is the only one of that name. -/
lemma among_insert_self
    (h : (before ++ (some n, j) :: after).countP (·.1 == some n) ≤ 1) :
    among (before ++ (some n, j) :: after) n = some j ∧ among (before ++ after) n = none := by
  have hrest : (before ++ after).countP (·.1 == some n) = 0 := by
    simp only [List.countP_append, List.countP_cons, beq_self_eq_true, if_true] at h ⊢
    omega
  have hnone : (before ++ after).find? (·.1 == some n) = none := by
    rw [List.find?_eq_none]
    exact List.countP_eq_zero.mp hrest
  have hbefore : before.find? (·.1 == some n) = none := by
    rw [List.find?_append, Option.or_eq_none_iff] at hnone
    exact hnone.1
  refine ⟨?_, by rw [among, hnone]; rfl⟩
  rw [among, List.find?_append, hbefore, List.find?_cons_of_pos (by simp)]
  rfl

end Fields

/-- A record is read if every member name is a string and no known one stands twice. -/
lemma fields?_object {ms : List (Option String × Json)} {names : List String} {f : Fields} :
    (object ms).fields? names = some f ↔
      (∀ m ∈ ms, m.1.isSome = true) ∧ (∀ n ∈ names, ms.countP (·.1 == some n) ≤ 1) ∧
        f = Fields.among ms := by
  have hcount (n : String) : (ms.filterMap (·.1)).count n = ms.countP (·.1 == some n) := by
    rw [List.count, List.countP_filterMap]
    refine List.countP_congr fun m _ => ?_
    cases m.1 <;> simp
  have hknown : (names.any fun n => decide (1 < (ms.filterMap (·.1)).count n)) = false ↔
      ∀ n ∈ names, ms.countP (·.1 == some n) ≤ 1 := by
    simp [List.any_eq_false, hcount]
  simp only [fields?, Option.bind_eq_bind, Option.bind_eq_some_iff, mapM_eq_some_iff]
  constructor
  · rintro ⟨keys, ⟨hkeys, rfl⟩, hf⟩
    split_ifs at hf with hany
    exact ⟨hkeys, hknown.mp (Bool.eq_false_iff.mpr hany), (Option.some.inj hf).symm⟩
  · rintro ⟨hkeys, hones, rfl⟩
    refine ⟨_, ⟨hkeys, rfl⟩, ?_⟩
    rw [if_neg (Bool.eq_false_iff.mp (hknown.mpr hones))]
    rfl

/-- One more member, with a name that is not among the given ones. -/
def Gains (names : List String) (j j' : Json) : Prop :=
  ∃ before after n v, n ∉ names ∧ j = object (before ++ after) ∧
    j' = object (before ++ (some n, v) :: after)

/-- One member of the given name less. -/
def Loses (name : String) (j j' : Json) : Prop :=
  ∃ before after v, j = object (before ++ (some name, v) :: after) ∧ j' = object (before ++ after)

lemma Gains.ne_null {names : List String} {j j' : Json} (h : Gains names j j') :
    j ≠ null ∧ j' ≠ null := by
  obtain ⟨_, _, _, _, -, rfl, rfl⟩ := h
  exact ⟨nofun, nofun⟩

lemma Loses.ne_null {name : String} {j j' : Json} (h : Loses name j j') :
    j ≠ null ∧ j' ≠ null := by
  obtain ⟨_, _, _, rfl, rfl⟩ := h
  exact ⟨nofun, nofun⟩

/-- The value of a member changes. -/
def Within (name : String) (r : Json → Json → Prop) (j j' : Json) : Prop :=
  ∃ before after v v', r v v' ∧ j = object (before ++ (some name, v) :: after) ∧
    j' = object (before ++ (some name, v') :: after)

lemma countP_insert (before after : List (Option String × Json)) (n m : String) (v : Json) :
    (before ++ (some n, v) :: after).countP (·.1 == some m) =
      (before ++ after).countP (·.1 == some m) + if n = m then 1 else 0 := by
  simp only [List.countP_append, List.countP_cons, beq_iff_eq, Option.some.injEq]
  omega

variable {names : List String} {name : String} {j j' : Json} {f : Fields}

/-- A member that is not looked for changes nothing. -/
theorem Gains.fields? (h : Gains names j j') (hf : j.fields? names = some f) :
    ∃ f', j'.fields? names = some f' ∧ ∀ n ∈ names, f' n = f n := by
  obtain ⟨before, after, n, v, hn, rfl, rfl⟩ := h
  obtain ⟨hkeys, hones, rfl⟩ := fields?_object.mp hf
  refine ⟨_, fields?_object.mpr ⟨?_, fun m hm => ?_, rfl⟩, fun m hm => ?_⟩
  · simp only [List.forall_mem_append, List.forall_mem_cons] at hkeys ⊢
    exact ⟨hkeys.1, rfl, hkeys.2⟩
  · have hne : n ≠ m := fun h => hn (h ▸ hm)
    rw [countP_insert, if_neg hne]
    exact hones m hm
  · exact Fields.among_insert_of_ne fun h => hn (h ▸ hm)

/-- Without a member its field is missing, and no other one. -/
theorem Loses.fields? (h : Loses name j j') (hname : name ∈ names)
    (hf : j.fields? names = some f) :
    ∃ f', j'.fields? names = some f' ∧ f' name = none ∧ ∀ n ≠ name, f' n = f n := by
  obtain ⟨before, after, v, rfl, rfl⟩ := h
  obtain ⟨hkeys, hones, rfl⟩ := fields?_object.mp hf
  refine ⟨_, fields?_object.mpr ⟨?_, fun m hm => ?_, rfl⟩, ?_, fun m hm => ?_⟩
  · simp only [List.forall_mem_append, List.forall_mem_cons] at hkeys ⊢
    exact ⟨hkeys.1, hkeys.2.2⟩
  · have hone := hones m hm
    rw [countP_insert] at hone
    omega
  · exact (Fields.among_insert_self (hones name hname)).2
  · exact (Fields.among_insert_of_ne hm).symm

/-- A change of a member changes its field, and no other one. -/
theorem Within.fields? {r : Json → Json → Prop} (h : Within name r j j') (hname : name ∈ names)
    (hf : j.fields? names = some f) :
    ∃ f' v v', j'.fields? names = some f' ∧ r v v' ∧ f name = some v ∧ f' name = some v' ∧
      ∀ n ≠ name, f' n = f n := by
  obtain ⟨before, after, v, v', hr, rfl, rfl⟩ := h
  obtain ⟨hkeys, hones, rfl⟩ := fields?_object.mp hf
  have hones' : ∀ m ∈ names, (before ++ (some name, v') :: after).countP (·.1 == some m) ≤ 1 := by
    simpa only [countP_insert] using hones
  refine ⟨_, v, v', fields?_object.mpr ⟨?_, hones', rfl⟩, hr, ?_, ?_, fun m hm => ?_⟩
  · simp only [List.forall_mem_append, List.forall_mem_cons] at hkeys ⊢
    exact ⟨hkeys.1, rfl, hkeys.2.2⟩
  · exact (Fields.among_insert_self (hones name hname)).1
  · exact (Fields.among_insert_self (hones' name hname)).1
  · rw [Fields.among_insert_of_ne hm, Fields.among_insert_of_ne hm]

/-- Both are missing, or they are the same but for the order of members. -/
abbrev SameField : Option Json → Option Json → Prop :=
  Option.Rel fun v v' => Rearranged v v' ∧ v.Distinct

lemma sameField_refl {o : Option Json} (h : ∀ v, o = some v → v.Distinct) : SameField o o := by
  cases o with
  | none => exact .none
  | some v => exact .some ⟨.refl v, h v rfl⟩

/-- The same fields but for the order of members in their values. -/
def Fields.Rearranged (f f' : Fields) : Prop := ∀ n, SameField (f n) (f' n)

lemma Fields.Rearranged.trans {f' f'' : Fields} (h : f.Rearranged f') (h' : f'.Rearranged f'') :
    f.Rearranged f'' := fun n =>
  match f n, f' n, f'' n, h n, h' n with
  | none, none, none, .none, .none => .none
  | some _, some _, some _, .some hv, .some hv' => .some ⟨hv.1.trans hv'.1, hv.2⟩

/-- What the fields of a value hold is a part of it. -/
lemma Distinct.of_field (hj : Distinct j) (hf : j.fields? names = some f) {n : String} {v : Json}
    (hv : f n = some v) : v.Distinct := by
  cases hj with
  | array hitems =>
    simp only [fields?] at hf
    split_ifs at hf
    obtain rfl := Option.some.inj hf
    exact hitems v (List.mem_of_getElem? hv)
  | object hnames hvalues =>
    obtain ⟨-, -, rfl⟩ := fields?_object.mp hf
    obtain ⟨m, hm, rfl⟩ := Option.map_eq_some_iff.mp hv
    exact hvalues m (List.mem_of_find?_eq_some hm)
  | null | bool | number | text => cases hf

/-- Among members of different names there is one of each. -/
lemma find?_eq_some_iff_mem {ms : List (Option String × Json)}
    (hnames : (ms.filterMap (·.1)).Nodup) {n : String} {m : Option String × Json} :
    ms.find? (·.1 == some n) = some m ↔ m ∈ ms ∧ m.1 = some n := by
  constructor
  · intro h
    exact ⟨List.mem_of_find?_eq_some h, by simpa using List.find?_some h⟩
  · rintro ⟨hm, hn⟩
    induction ms with
    | nil => cases hm
    | cons a ms ih =>
      rcases List.mem_cons.mp hm with rfl | hm
      · exact List.find?_cons_of_pos (by simp [hn])
      · have hrest : n ∈ ms.filterMap (·.1) := List.mem_filterMap.mpr ⟨m, hm, hn⟩
        have hne : a.1 ≠ some n := by
          intro ha
          rw [List.filterMap_cons_some ha] at hnames
          exact (List.nodup_cons.mp hnames).1 hrest
        rw [List.find?_cons_of_neg (by simpa using hne)]
        exact ih (hnames.sublist ((List.sublist_cons_self a ms).filterMap _)) hm

lemma Fields.among_perm {ms ms' : List (Option String × Json)} (h : ms.Perm ms')
    (hnames : (ms.filterMap (·.1)).Nodup) : among ms' = among ms := by
  have hnames' := (h.filterMap (·.1)).nodup_iff.mp hnames
  funext n
  refine congrArg (Option.map _) (Option.ext fun m => ?_)
  rw [find?_eq_some_iff_mem hnames, find?_eq_some_iff_mem hnames', h.mem_iff]

lemma Fields.among_cons (m : Option String × Json) (ms : List (Option String × Json)) (n : String) :
    among (m :: ms) n = if m.1 = some n then some m.2 else among ms n := by
  unfold among
  split_ifs with h
  · rw [List.find?_cons_of_pos (by simpa using h)]
    rfl
  · rw [List.find?_cons_of_neg (by simpa using h)]

lemma sameField_among {v v' : Json} (h : Rearranged v v') {before after} {k : Option String}
    (hvalues : ∀ m ∈ before ++ (k, v) :: after, m.2.Distinct) (n : String) :
    SameField (Fields.among (before ++ (k, v) :: after) n)
      (Fields.among (before ++ (k, v') :: after) n) := by
  induction before with
  | nil =>
    obtain ⟨hv, hafter⟩ := List.forall_mem_cons.mp hvalues
    simp only [List.nil_append, Fields.among_cons]
    split_ifs
    · exact .some ⟨h, hv⟩
    · refine sameField_refl fun w hw => ?_
      obtain ⟨m, hm, rfl⟩ := Option.map_eq_some_iff.mp hw
      exact hafter m (List.mem_of_find?_eq_some hm)
  | cons m before ih =>
    obtain ⟨hm, hrest⟩ := List.forall_mem_cons.mp hvalues
    simp only [List.cons_append, Fields.among_cons]
    split_ifs
    · exact .some ⟨.refl m.2, hm⟩
    · exact ih hrest

lemma sameField_getElem? {v v' : Json} (h : Rearranged v v') {before after}
    (hitems : ∀ w ∈ before ++ v :: after, w.Distinct) (i : Nat) :
    SameField (before ++ v :: after)[i]? (before ++ v' :: after)[i]? := by
  induction before generalizing i with
  | nil =>
    obtain ⟨hv, hafter⟩ := List.forall_mem_cons.mp hitems
    cases i with
    | zero => exact .some ⟨h, hv⟩
    | succ i => exact sameField_refl fun w hw => hafter w (List.mem_of_getElem? hw)
  | cons w before ih =>
    obtain ⟨hw, hrest⟩ := List.forall_mem_cons.mp hitems
    cases i with
    | zero => exact .some ⟨.refl w, hw⟩
    | succ i => exact ih hrest i

/-- A change in the order of members somewhere in a value shows in its fields as such changes. -/
theorem Rearranged.fields? (h : Rearranged j j') (hj : Distinct j) (hf : j.fields? names = some f) :
    ∃ f', j'.fields? names = some f' ∧ f.Rearranged f' := by
  have hrefl {j : Json} {f : Fields} (hj : Distinct j) (hf : j.fields? names = some f) :
      f.Rearranged f := fun n => sameField_refl fun v => hj.of_field hf
  induction h generalizing f with
  | refl => exact ⟨f, hf, hrefl hj hf⟩
  | members hperm =>
    have hsame := hrefl hj hf
    obtain ⟨hkeys, hones, rfl⟩ := fields?_object.mp hf
    cases hj with
    | object hnames hvalues =>
      refine ⟨_, fields?_object.mpr ⟨?_, ?_, (Fields.among_perm hperm hnames).symm⟩, hsame⟩
      · exact fun m hm => hkeys m (hperm.mem_iff.mpr hm)
      · exact fun n hn => hperm.countP_eq _ ▸ hones n hn
  | @item i i' before after hi _ =>
    cases hj with
    | array hitems =>
      simp only [Json.fields?] at hf ⊢
      split_ifs at hf with hlength
      obtain rfl := Option.some.inj hf
      exact ⟨_, if_pos (by simpa using hlength), fun n => sameField_getElem? hi hitems _⟩
  | @member v v' before after k hv _ =>
    obtain ⟨hkeys, hones, rfl⟩ := fields?_object.mp hf
    cases hj with
    | object hnames hvalues =>
      refine ⟨_, fields?_object.mpr ⟨?_, ?_, rfl⟩, sameField_among hv hvalues⟩
      · simpa only [List.forall_mem_append, List.forall_mem_cons] using hkeys
      · simpa only [List.countP_append, List.countP_cons] using hones
  | trans hjk _ ih ih' =>
    obtain ⟨f', hf', hff'⟩ := ih hj hf
    obtain ⟨f'', hf'', hf'f''⟩ := ih' (hjk.distinct hj) hf'
    exact ⟨f'', hf'', hff'.trans hf'f''⟩

namespace Fields

variable {α : Type} {f f' : Fields} {n : String} {fallback x : α} {read : Json → Option α}

lemma optional?_of_none (h : f n = none) : f.optional? n fallback read = some fallback := by
  rw [optional?, h]

lemma optional?_of_some {v : Json} (h : f n = some v) :
    f.optional? n fallback read = read v := by
  rw [optional?, h]

lemma optional?_congr (h : f' n = f n) :
    f'.optional? n fallback read = f.optional? n fallback read := by
  rw [optional?, optional?, h]

lemma Rearranged.optional? (h : f.Rearranged f') (hread : Unordered read)
    (hx : f.optional? n fallback read = some x) : f'.optional? n fallback read = some x := by
  unfold Fields.optional? at hx ⊢
  match f n, f' n, h n, hx with
  | none, none, .none, hx => exact hx
  | some _, some _, .some hv, hx => exact hread hv.1 hv.2 hx

lemma Rearranged.required? (h : f.Rearranged f') (hread : Unordered read)
    (hx : f.required? n read = some x) : f'.required? n read = some x := by
  unfold Fields.required? at hx ⊢
  match f n, f' n, h n, hx with
  | some _, some _, .some hv, hx => exact hread hv.1 hv.2 hx

end Fields

/-- A reader of fields makes a reader of records. -/
lemma Unordered.record {α : Type} {names : List String} {read : Fields → Option α}
    (h : ∀ {f f' x}, f.Rearranged f' → read f = some x → read f' = some x) :
    Unordered fun j => j.fields? names >>= read := by
  intro j j' x hjj' hj hx
  obtain ⟨f, hf, hx⟩ := Option.bind_eq_some_iff.mp hx
  obtain ⟨f', hf', hff'⟩ := hjj'.fields? hj hf
  exact Option.bind_eq_some_iff.mpr ⟨f', hf', h hff' hx⟩

/-- A record type `α` whose fields `F` are read one by one, each with a default. -/
structure RecordForm (F α : Type) where
  names : List String
  read : Json → Option α
  key : F → String
  /-- The value of a field is what is read from the member of its name. -/
  Holds : Fields → α → F → Prop
  /-- The record with one field at its default. -/
  reset : α → F → α
  key_mem : ∀ a, key a ∈ names
  key_inj : ∀ {a b}, key a = key b → a = b
  read_eq_some_iff : ∀ {j x},
    read j = some x ↔ ∃ f, j.fields? names = some f ∧ ∀ a, Holds f x a
  holds_congr : ∀ {f f' : Fields} {x a}, f' (key a) = f (key a) → Holds f x a → Holds f' x a
  holds_rearranged : ∀ {f f' : Fields} {x a}, f.Rearranged f' → Holds f x a → Holds f' x a
  holds_reset_self : ∀ {f : Fields} {x a}, f (key a) = none → Holds f (reset x a) a
  holds_reset_of_ne : ∀ {f x a b}, b ≠ a → Holds f x b → Holds f (reset x a) b

namespace RecordForm

variable {F α : Type} (form : RecordForm F α) {x : α}

theorem unordered : Unordered form.read := by
  intro j j' x h hj hx
  obtain ⟨f, hf, hholds⟩ := form.read_eq_some_iff.mp hx
  obtain ⟨f', hf', hff'⟩ := h.fields? hj hf
  exact form.read_eq_some_iff.mpr ⟨f', hf', fun a => form.holds_rearranged hff' (hholds a)⟩

/-- A member of an unknown name is passed over. -/
theorem read_of_gains (h : Gains form.names j j') (hx : form.read j = some x) :
    form.read j' = some x := by
  obtain ⟨f, hf, hholds⟩ := form.read_eq_some_iff.mp hx
  obtain ⟨f', hf', hsame⟩ := h.fields? hf
  refine form.read_eq_some_iff.mpr ⟨f', hf', fun a => ?_⟩
  exact form.holds_congr (hsame _ (form.key_mem a)) (hholds a)

/-- Without its member a field is at its default, and the others stay. -/
theorem read_of_loses {a : F} (h : Loses (form.key a) j j') (hx : form.read j = some x) :
    form.read j' = some (form.reset x a) := by
  obtain ⟨f, hf, hholds⟩ := form.read_eq_some_iff.mp hx
  obtain ⟨f', hf', hmissing, hsame⟩ := h.fields? (form.key_mem a) hf
  refine form.read_eq_some_iff.mpr ⟨f', hf', fun b => ?_⟩
  by_cases hb : b = a
  · subst hb
    exact form.holds_reset_self hmissing
  · refine form.holds_reset_of_ne hb ?_
    exact form.holds_congr (hsame _ fun hkey => hb (form.key_inj hkey)) (hholds b)

/-- With another value for one field the others stay. -/
theorem read_of_within {a : F} {r : Json → Json → Prop} (h : Within (form.key a) r j j')
    (hx : form.read j = some x) {y : α}
    (hother : ∀ {f b}, b ≠ a → form.Holds f x b → form.Holds f y b)
    (hself : ∀ {f f' v v'}, r v v' → f (form.key a) = some v → f' (form.key a) = some v' →
      form.Holds f x a → form.Holds f' y a) : form.read j' = some y := by
  obtain ⟨f, hf, hholds⟩ := form.read_eq_some_iff.mp hx
  obtain ⟨f', v, v', hf', hr, hv, hv', hsame⟩ := h.fields? (form.key_mem a) hf
  refine form.read_eq_some_iff.mpr ⟨f', hf', fun b => ?_⟩
  by_cases hb : b = a
  · subst hb
    exact hself hr hv hv' (hholds b)
  · refine hother hb ?_
    exact form.holds_congr (hsame _ fun hkey => hb (form.key_inj hkey)) (hholds b)

end RecordForm

end Whereabouts.Json
