import Mathlib.Data.Finset.Card
import Mathlib.Data.List.Forall2
import Mathlib.Data.List.Induction
import Mathlib.Data.List.Nodup

/-!
# Lists gathered with what stands before

`gather f xs` goes through a list once and joins what `f` gives for each entry,
where `f` is shown the entries before it.  A rule that compares an entry with all
earlier ones is stated by `f` alone, without a state that is carried along.

`gather_concat` adds one entry at the end.  `gather_congr`, `gather_sublist` and
`gatherFrom_eq_of_forall₂` compare what is gathered entry by entry.
`gatherFrom_eq_gather_append` shows every entry what stands before the list, and
`gatherFrom_eq_gather` leaves it out.
`gather_eq_nil_iff_nodup` reads an empty result as a statement about the whole list, and
`length_gather_add_card` counts what is gathered.  `gatherFrom_filter` and
`gatherFrom_flatMap` change the list that is gone through.
-/

namespace TreeCheck

variable {α β γ κ : Type}

/-- The list is gathered as the end of a longer one that starts with `before`. -/
def gatherFrom (f : List α → α → List β) (before : List α) : List α → List β
  | [] => []
  | x :: xs => f before x ++ gatherFrom f (before ++ [x]) xs

def gather (f : List α → α → List β) (xs : List α) : List β := gatherFrom f [] xs

theorem gatherFrom_append (f : List α → α → List β) (before xs ys : List α) :
    gatherFrom f before (xs ++ ys) =
      gatherFrom f before xs ++ gatherFrom f (before ++ xs) ys := by
  induction xs generalizing before with
  | nil => rw [List.nil_append, List.append_nil]; rfl
  | cons x xs ih =>
    rw [List.cons_append, gatherFrom, gatherFrom, ih, List.append_cons before x xs,
      List.append_assoc (f before x)]

theorem gather_append (f : List α → α → List β) (xs ys : List α) :
    gather f (xs ++ ys) = gather f xs ++ gatherFrom f xs ys :=
  gatherFrom_append f [] xs ys

theorem gather_concat (f : List α → α → List β) (xs : List α) (x : α) :
    gather f (xs ++ [x]) = gather f xs ++ f xs x := by
  rw [gather_append, gatherFrom, gatherFrom, List.append_nil]

theorem exists_of_mem_gather {f : List α → α → List β} {xs : List α} {y : β}
    (h : y ∈ gather f xs) : ∃ front x back, xs = front ++ x :: back ∧ y ∈ f front x := by
  induction xs using List.reverseRecOn with
  | nil => cases h
  | append_singleton xs x ih =>
    rw [gather_concat, List.mem_append] at h
    rcases h with hfront | hlast
    · obtain ⟨front, z, back, hxs, hy⟩ := ih hfront
      refine ⟨front, z, back ++ [x], ?_, hy⟩
      rw [hxs, List.append_assoc, List.cons_append]
    · exact ⟨xs, x, [], rfl, hlast⟩

theorem gather_congr {f g : List α → α → List β} {xs : List α}
    (h : ∀ front x back, xs = front ++ x :: back → f front x = g front x) :
    gather f xs = gather g xs := by
  induction xs using List.reverseRecOn with
  | nil => rfl
  | append_singleton xs x ih =>
    have front : gather f xs = gather g xs := by
      refine ih fun front y back hxs => h front y (back ++ [x]) ?_
      rw [hxs, List.append_assoc, List.cons_append]
    rw [gather_concat, gather_concat, front, h xs x [] rfl]

theorem gather_sublist {f g : List α → α → List β} {xs : List α}
    (h : ∀ front x back, xs = front ++ x :: back → (f front x).Sublist (g front x)) :
    (gather f xs).Sublist (gather g xs) := by
  induction xs using List.reverseRecOn with
  | nil => exact .slnil
  | append_singleton xs x ih =>
    rw [gather_concat, gather_concat]
    refine (ih fun front y back hxs => h front y (back ++ [x]) ?_).append (h xs x [] rfl)
    rw [hxs, List.append_assoc, List.cons_append]

/-- What stands before the list can be shown to every entry instead. -/
theorem gatherFrom_eq_gather_append (f : List α → α → List β) (before xs : List α) :
    gatherFrom f before xs = gather (fun front x => f (before ++ front) x) xs := by
  induction xs using List.reverseRecOn with
  | nil => rfl
  | append_singleton xs x ih =>
    rw [gather_concat, gatherFrom_append, ih, gatherFrom, gatherFrom, List.append_nil]

/-- What stands before the list can be left out if no entry looks at it. -/
theorem gatherFrom_eq_gather {f : List α → α → List β} {before xs : List α}
    (h : ∀ front x back, xs = front ++ x :: back → f (before ++ front) x = f front x) :
    gatherFrom f before xs = gather f xs := by
  rw [gatherFrom_eq_gather_append]
  exact gather_congr h

/-- Lists that are related entry by entry give the same if related entries do. -/
theorem gatherFrom_eq_of_forall₂ {R : α → γ → Prop} {f : List α → α → List β}
    {g : List γ → γ → List β}
    (h : ∀ {front back x y}, List.Forall₂ R front back → R x y → f front x = g back y)
    {before xs : List α} {before' ys : List γ} (hbefore : List.Forall₂ R before before')
    (hxs : List.Forall₂ R xs ys) : gatherFrom f before xs = gatherFrom g before' ys := by
  induction hxs generalizing before before' with
  | nil => rfl
  | cons hxy _ ih =>
    rw [gatherFrom, gatherFrom, h hbefore hxy,
      ih (List.rel_append hbefore (List.Forall₂.cons hxy .nil))]

theorem gather_eq_flatMap (f : α → List β) (xs : List α) :
    gather (fun _ x => f x) xs = xs.flatMap f := by
  induction xs using List.reverseRecOn with
  | nil => rfl
  | append_singleton xs x ih =>
    rw [gather_concat, ih, List.flatMap_append, List.flatMap_singleton]

theorem filter_gather (p : β → Bool) (f : List α → α → List β) (xs : List α) :
    (gather f xs).filter p = gather (fun before x => (f before x).filter p) xs := by
  induction xs using List.reverseRecOn with
  | nil => rfl
  | append_singleton xs x ih => rw [gather_concat, gather_concat, List.filter_append, ih]

theorem map_gather (g : β → γ) (f : List α → α → List β) (xs : List α) :
    (gather f xs).map g = gather (fun before x => (f before x).map g) xs := by
  induction xs using List.reverseRecOn with
  | nil => rfl
  | append_singleton xs x ih => rw [gather_concat, gather_concat, List.map_append, ih]

theorem gather_map (f : List γ → γ → List β) (g : α → γ) (xs : List α) :
    gather f (xs.map g) = gather (fun before x => f (before.map g) (g x)) xs := by
  induction xs using List.reverseRecOn with
  | nil => rfl
  | append_singleton xs x ih =>
    rw [List.map_append, List.map_singleton, gather_concat, gather_concat, ih]

/-! ## Empty results -/

theorem gather_eq_nil_iff_forall {f : List α → α → List β} {P : α → Prop}
    (h : ∀ before x, f before x = [] ↔ P x) (xs : List α) :
    gather f xs = [] ↔ ∀ x ∈ xs, P x := by
  induction xs using List.reverseRecOn with
  | nil => exact ⟨fun _ => List.forall_mem_nil P, fun _ => rfl⟩
  | append_singleton xs x ih =>
    rw [gather_concat, List.append_eq_nil_iff, ih, h, List.forall_mem_append,
      List.forall_mem_singleton]

/-- Where an entry gives something if its key has come before, nothing is gathered if
no key comes twice. -/
theorem gather_eq_nil_iff_nodup {f : List α → α → List β} {key : α → Option κ}
    (h : ∀ before x, f before x = [] ↔ ∀ k, key x = some k → k ∉ before.filterMap key)
    (xs : List α) :
    gather f xs = [] ↔ (xs.filterMap key).Nodup := by
  induction xs using List.reverseRecOn with
  | nil => exact ⟨fun _ => List.nodup_nil, fun _ => rfl⟩
  | append_singleton xs x ih =>
    rw [gather_concat, List.append_eq_nil_iff, ih, h, List.filterMap_append]
    cases hx : key x with
    | none =>
      have silent : ∀ k, none = some k → k ∉ xs.filterMap key := nofun
      rw [List.filterMap_cons_none hx, List.filterMap_nil, List.append_nil]
      exact and_iff_left silent
    | some k =>
      rw [List.filterMap_cons_some hx, List.filterMap_nil, ← List.concat_eq_append,
        List.nodup_concat, and_comm]
      simp only [Option.some.injEq, forall_eq']

theorem gather_flatMap_eq_nil_iff (rs : List γ) (f : γ → List α → α → List β) (xs : List α) :
    gather (fun before x => rs.flatMap fun r => f r before x) xs = [] ↔
      ∀ r ∈ rs, gather (f r) xs = [] := by
  induction xs using List.reverseRecOn with
  | nil => exact ⟨fun _ _ _ => rfl, fun _ => rfl⟩
  | append_singleton xs x ih =>
    simp only [gather_concat, List.append_eq_nil_iff, ih, List.flatMap_eq_nil_iff]
    exact forall₂_and.symm

/-! ## Lengths -/

theorem toFinset_concat [DecidableEq κ] (ks : List κ) (k : κ) :
    (ks ++ [k]).toFinset = insert k ks.toFinset := by
  rw [List.toFinset_append, Finset.union_comm]
  rfl

/-- Where an entry gives one thing if its key has come before and nothing otherwise, as
much is gathered as is left of the keys when each is counted once. -/
theorem length_gather_add_card [DecidableEq κ] {f : List α → α → List β} {key : α → Option κ}
    (hone : ∀ before x, (f before x).length ≤ 1)
    (h : ∀ before x, f before x = [] ↔ ∀ k, key x = some k → k ∉ before.filterMap key)
    (xs : List α) :
    (gather f xs).length + (xs.filterMap key).toFinset.card = (xs.filterMap key).length := by
  induction xs using List.reverseRecOn with
  | nil => rfl
  | append_singleton xs x ih =>
    rw [gather_concat, List.length_append, List.filterMap_append]
    cases hx : key x with
    | none =>
      have silent : f xs x = [] := (h xs x).mpr fun k hk => absurd (hx.symm.trans hk) nofun
      rw [silent, List.filterMap_cons_none hx, List.filterMap_nil, List.append_nil]
      exact ih
    | some k =>
      rw [List.filterMap_cons_some hx, List.filterMap_nil, toFinset_concat, List.length_append,
        List.length_singleton]
      by_cases hk : k ∈ xs.filterMap key
      · have speaks : f xs x ≠ [] := fun hnil => (h xs x).mp hnil k hx hk
        have hpos := List.length_pos_iff.mpr speaks
        have hle := hone xs x
        rw [Finset.insert_eq_of_mem (List.mem_toFinset.mpr hk)]
        omega
      · have silent : f xs x = [] := by
          rw [h, hx]
          rintro j ⟨⟩
          exact hk
        rw [silent, Finset.card_insert_of_notMem (mt List.mem_toFinset.mp hk), List.length_nil]
        omega

/-! ## Other lists -/

/-- Entries that give nothing and that no other entry looks at can be left out. -/
theorem gatherFrom_filter {f : List α → α → List β} {p : α → Bool}
    (silent : ∀ before x, p x = false → f before x = [])
    (blind : ∀ before x, f (before.filter p) x = f before x) (before xs : List α) :
    gatherFrom f before xs = gatherFrom f (before.filter p) (xs.filter p) := by
  induction xs generalizing before with
  | nil => rfl
  | cons x xs ih =>
    rw [gatherFrom, ih]
    by_cases hx : p x = true
    · rw [List.filter_cons_of_pos hx, gatherFrom, blind, List.filter_append,
        List.filter_cons_of_pos hx, List.filter_nil]
    · have hx' : p x = false := Bool.eq_false_iff.mpr hx
      rw [List.filter_cons_of_neg hx, silent before x hx', List.nil_append,
        List.filter_append, List.filter_cons_of_neg hx, List.filter_nil, List.append_nil]

theorem gatherFrom_flatMap (f : List γ → γ → List β) (h : α → List γ) (before xs : List α) :
    gatherFrom f (before.flatMap h) (xs.flatMap h) =
      gatherFrom (fun front x => gatherFrom f (front.flatMap h) (h x)) before xs := by
  induction xs generalizing before with
  | nil => rfl
  | cons x xs ih =>
    have next : before.flatMap h ++ h x = (before ++ [x]).flatMap h := by
      rw [List.flatMap_append, List.flatMap_singleton]
    rw [List.flatMap_cons, gatherFrom_append, next, ih, gatherFrom]

end TreeCheck
