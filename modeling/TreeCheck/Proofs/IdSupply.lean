import Mathlib.Data.List.Nodup
import TreeCheck.IdSupply

/-!
# What a supply hands out

`position` is the number of the next identifier, and an exhausted supply stands after the
greatest one.  A request to take moves the position by one as long as there is an identifier
left; a refusal and a look at the supply leave it where it is.  So the identifiers that a
sequence of requests is given are consecutive, starting at the position
(`map_toNat_issued`), and no identifier is given twice.

For single replies the numbers are more convenient that go on past the greatest identifier.
Every request to take then moves the supply from `standingAt n` to `standingAt (n + 1)`, also
if it is refused, since an exhausted supply stands at all numbers that are too great
(`after_standingAt`).  `serveAll_startingAt` tells from this what each reply is.
-/

namespace TreeCheck

theorem NodeId.ofNat?_eq_none_iff {n : Nat} : ofNat? n = none ↔ UInt32.size ≤ n := by
  rw [ofNat?, ite_eq_right_iff, ← Nat.not_lt]
  exact imp_congr_right fun _ => iff_false_intro (Option.some_ne_none _)

namespace IdSupply

/-- The identifier that a reply hands out. -/
def Reply.issued? (r : Reply) : Option NodeId := r.taken.bind Except.toOption

/-- The identifiers that a sequence of requests is given, in this order. -/
def issued (s : IdSupply) (requests : List Request) : List NodeId :=
  (s.serveAll requests).filterMap Reply.issued?

/-- The supply that a sequence of requests leaves behind. -/
def after (s : IdSupply) (requests : List Request) : IdSupply :=
  requests.foldl (fun s r => (s.serve r).2) s

/-- The supply that hands out the number `n` next.  It is exhausted if `n` is too great. -/
def standingAt (n : Nat) : IdSupply := ⟨NodeId.ofNat? n⟩

/-- How far the supply has come. -/
def position (s : IdSupply) : Nat :=
  match s.next with
  | some x => x.toNat
  | none => UInt32.size

theorem position_le (s : IdSupply) : s.position ≤ UInt32.size := by
  obtain ⟨next⟩ := s
  cases next with
  | none => exact Nat.le_refl _
  | some x => exact Nat.le_of_lt x.toNat_lt

theorem issued_cons (s : IdSupply) (r : Request) (requests : List Request) :
    s.issued (r :: requests) =
      (s.serve r).1.issued?.toList ++ (s.serve r).2.issued requests := by
  rw [issued, serveAll, List.filterMap_cons]
  cases (s.serve r).1.issued? with
  | none => rfl
  | some x => rfl

theorem issued_peek (s : IdSupply) (requests : List Request) :
    s.issued (.peek :: requests) = s.issued requests := s.issued_cons .peek requests

/-! ## One request -/

theorem position_succ? (x : NodeId) : position ⟨x.succ?⟩ = x.toNat + 1 := by
  have hx := x.toNat_lt
  unfold position
  cases h : x.succ? with
  | some y => exact NodeId.toNat_of_ofNat? h
  | none => exact Nat.le_antisymm (NodeId.ofNat?_eq_none_iff.mp h) hx

/-- As long as the supply is not exhausted, it hands out the identifier at its position. -/
theorem serve_take_of_lt {s : IdSupply} (h : s.position < UInt32.size) :
    (∃ x, (s.serve .take).1.issued? = some x ∧ x.toNat = s.position) ∧
      (s.serve .take).2.position = s.position + 1 := by
  obtain ⟨next⟩ := s
  cases next with
  | none => exact absurd h (Nat.lt_irrefl _)
  | some x => exact ⟨⟨x, rfl, rfl⟩, position_succ? x⟩

theorem serve_take_of_eq {s : IdSupply} (h : s.position = UInt32.size) :
    (s.serve .take).1.issued? = none ∧ (s.serve .take).2 = s := by
  obtain ⟨next⟩ := s
  cases next with
  | none => exact ⟨rfl, rfl⟩
  | some x => exact absurd h (Nat.ne_of_lt x.toNat_lt)

/-! ## A sequence of requests -/

/-- The numbers that are handed out follow one another from the position on. -/
theorem map_toNat_issued (s : IdSupply) (requests : List Request) :
    (s.issued requests).map NodeId.toNat =
      List.range' s.position (min (requests.count .take) (UInt32.size - s.position)) := by
  induction requests generalizing s with
  | nil => rw [List.count_nil, Nat.zero_min]; rfl
  | cons r requests ih =>
    cases r with
    | peek => rw [issued_peek, ih, List.count_cons_of_ne (by decide)]
    | take =>
      rw [issued_cons, List.map_append, List.count_cons_self, ih]
      rcases Nat.lt_or_eq_of_le s.position_le with hlt | heq
      · obtain ⟨⟨x, hissued, hx⟩, hposition⟩ := serve_take_of_lt hlt
        have hcount : min (requests.count .take + 1) (UInt32.size - s.position) =
            min (requests.count .take) (UInt32.size - (s.position + 1)) + 1 := by omega
        rw [hissued, hposition, hcount, List.range'_succ, ← hx]
        rfl
      · obtain ⟨hissued, hsame⟩ := serve_take_of_eq heq
        rw [hissued, hsame, heq, Nat.sub_self, Nat.min_zero, Nat.min_zero]
        rfl

theorem pairwise_issued (s : IdSupply) (requests : List Request) :
    (s.issued requests).Pairwise (· < ·) := by
  have hpairs : ((s.issued requests).map NodeId.toNat).Pairwise (· < ·) := by
    rw [map_toNat_issued]
    exact List.pairwise_lt_range'
  rw [List.pairwise_map] at hpairs
  exact hpairs

theorem nodup_issued (s : IdSupply) (requests : List Request) : (s.issued requests).Nodup := by
  rw [List.nodup_iff_pairwise_ne]
  refine (s.pairwise_issued requests).imp ?_
  rintro x y hxy rfl
  exact Nat.lt_irrefl _ (NodeId.lt_iff.mp hxy)

theorem length_issued (s : IdSupply) (requests : List Request) :
    (s.issued requests).length = min (requests.count .take) (UInt32.size - s.position) := by
  rw [← List.length_map NodeId.toNat, map_toNat_issued, List.length_range']

/-! ## One reply in a sequence -/

theorem serveAll_append (s : IdSupply) (front back : List Request) :
    s.serveAll (front ++ back) = s.serveAll front ++ (s.after front).serveAll back := by
  induction front generalizing s with
  | nil => rfl
  | cons r front ih =>
    rw [List.cons_append, serveAll, serveAll, List.cons_append, ih]
    rfl

theorem length_serveAll (s : IdSupply) (requests : List Request) :
    (s.serveAll requests).length = requests.length := by
  induction requests generalizing s with
  | nil => rfl
  | cons r requests ih => rw [serveAll, List.length_cons, List.length_cons, ih]

theorem getElem?_serveAll (s : IdSupply) (front back : List Request) (r : Request) :
    (s.serveAll (front ++ r :: back))[front.length]? = some ((s.after front).serve r).1 := by
  rw [serveAll_append, ← s.length_serveAll front, List.getElem?_append_right (Nat.le_refl _),
    Nat.sub_self]
  rfl

theorem eraseIdx_serveAll_peek (s : IdSupply) (front back : List Request) :
    (s.serveAll (front ++ .peek :: back)).eraseIdx front.length = s.serveAll (front ++ back) := by
  rw [serveAll_append, serveAll_append, ← s.length_serveAll front,
    List.eraseIdx_append_of_length_le (Nat.le_refl _), Nat.sub_self]
  rfl

/-! ## Numbers past the greatest identifier -/

theorem startingAt_eq_standingAt (first : NodeId) : startingAt first = standingAt first.toNat := by
  rw [standingAt, first.ofNat?_toNat, startingAt]

theorem take_standingAt (n : Nat) :
    (standingAt n).take =
      ((NodeId.ofNat? n).elim (.error .exhausted) .ok, standingAt (n + 1)) := by
  cases h : NodeId.ofNat? n with
  | some x => rw [standingAt, h, take_some, NodeId.succ?, NodeId.toNat_of_ofNat? h]; rfl
  | none =>
    have exhausted : NodeId.ofNat? (n + 1) = none := by
      rw [NodeId.ofNat?_eq_none_iff] at h ⊢
      exact Nat.le_succ_of_le h
    rw [standingAt, h, take_none, standingAt, exhausted]
    rfl

theorem after_standingAt (n : Nat) (requests : List Request) :
    (standingAt n).after requests = standingAt (n + requests.count .take) := by
  induction requests generalizing n with
  | nil => rfl
  | cons r requests ih =>
    cases r with
    | peek =>
      rw [List.count_cons_of_ne (by decide), ← ih]
      rfl
    | take =>
      rw [List.count_cons_self, ← Nat.add_assoc, Nat.add_right_comm, ← ih]
      exact congrArg (fun s => after s requests) (congrArg Prod.snd (take_standingAt n))

/-- The replies of a supply that starts at an identifier, told by what is due after a number
of requests to take. -/
theorem serveAll_startingAt (first : NodeId) :
    let s := startingAt first
    let due (k : Nat) : Option NodeId := NodeId.ofNat? (first.toNat + k)
    (∀ k x, due k = some x ↔ x.toNat = first.toNat + k) ∧
      (∀ k, due k = none ↔ 4294967295 < first.toNat + k) ∧
      (∀ front back : List Request, let k := front.count .take
        s.after front = ⟨due k⟩ ∧
          (s.serveAll (front ++ .take :: back))[front.length]? =
            some ⟨some ((due k).elim (.error .exhausted) .ok), due (k + 1)⟩ ∧
          (s.serveAll (front ++ .peek :: back))[front.length]? = some ⟨none, due k⟩ ∧
          (s.serveAll (front ++ .peek :: back)).eraseIdx front.length =
            s.serveAll (front ++ back)) ∧
      (∀ requests, (s.issued requests).Pairwise (· < ·) ∧
        (s.issued requests).length =
          min (requests.count .take) (4294967296 - first.toNat)) ∧
      (∃ requests, (s.issued requests).length = 4294967296 - first.toNat) ∧
      Refusal.exhausted.message = "node id space exhausted" ∧ fresh = startingAt ⟨0⟩ := by
  intro s due
  have hissued : ∀ requests, (s.issued requests).length =
      min (requests.count .take) (4294967296 - first.toNat) := s.length_issued
  have hafter : ∀ front, s.after front = standingAt (first.toNat + front.count .take) := by
    intro front
    rw [← after_standingAt, ← startingAt_eq_standingAt]
  refine ⟨fun k x => ⟨NodeId.toNat_of_ofNat?, fun h => ?_⟩, fun k => NodeId.ofNat?_eq_none_iff,
    fun front back => ⟨hafter front, ?_, ?_, s.eraseIdx_serveAll_peek front back⟩,
    fun requests => ⟨s.pairwise_issued requests, hissued requests⟩, ?_, rfl, rfl⟩
  · show NodeId.ofNat? (first.toNat + k) = some x
    rw [← h, x.ofNat?_toNat]
  · rw [getElem?_serveAll, hafter, serve, take_standingAt]
    rfl
  · rw [getElem?_serveAll, hafter]
    rfl
  · refine ⟨List.replicate (4294967296 - first.toNat) .take, ?_⟩
    rw [hissued, List.count_replicate_self, Nat.min_self]

end IdSupply
end TreeCheck
