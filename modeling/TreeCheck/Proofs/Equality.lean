import TreeCheck.Proofs.Ancestry
import TreeCheck.Proofs.Check.Sight
import TreeCheck.Proofs.Tree.Alike
import TreeCheck.Tree.Equality

/-!
# Trees that are equal as values

Equality as a value compares two trees entry by entry.  It is alikeness up to equality of
doubles (`Node.ieeeEq_iff`), and inherits from the doubles that it is symmetric and
transitive.  A tree is equal to itself if the doubles in it are.

Trees that are equal may differ in the signs of their zeros, and then their outlines differ
too.  But a walk, a check and an ancestry do not look into literals: alike trees give
signals with the same labels and look alike to a check, so `ieeeEq_congruence` needs
nothing of the equality of doubles for them.
-/

namespace TreeCheck

open Check

variable {same : Binary64 → Binary64 → Prop}

/-! ## Alikeness -/

theorem forall₂_trans {α : Type} {R S T : α → α → Prop} {xs ys zs : List α}
    (hRS : ∀ {x y z}, R x y → S y z → T x z) (hxy : List.Forall₂ R xs ys)
    (hyz : List.Forall₂ S ys zs) : List.Forall₂ T xs zs := by
  induction hxy generalizing zs with
  | nil => cases hyz; exact .nil
  | cons hR _ ih =>
    cases hyz with
    | cons hS hrest => exact .cons (hRS hR hS) (ih hrest)

def SlotValue.float? : SlotValue → Option Binary64
  | .literal (.float x) => some x
  | _ => none

theorem SlotValue.eq_of_float? {v : SlotValue} {x : Binary64} (h : v.float? = some x) :
    v = .literal (.float x) := by
  unfold SlotValue.float? at h
  split at h
  · cases h
    rfl
  · cases h

theorem SlotValue.alikeBy_iff {v w : SlotValue} :
    v.AlikeBy same w ↔
      (∃ x y, same x y ∧ v = .literal (.float x) ∧ w = .literal (.float y)) ∨
        v.float? = none ∧ v = w := by
  cases v with
  | literal v =>
    cases w with
    | literal w =>
      cases v <;> cases w <;> simp [SlotValue.AlikeBy, LiteralValue.AlikeBy, SlotValue.float?]
    | _ => simp [SlotValue.AlikeBy]
  | _ => simp [SlotValue.AlikeBy, SlotValue.float?]

section Symmetric

variable (hsame : ∀ x y, same x y → same y x)

include hsame

theorem SlotValue.AlikeBy.symm {v w : SlotValue} (h : v.AlikeBy same w) : w.AlikeBy same v := by
  rcases SlotValue.alikeBy_iff.mp h with ⟨x, y, hxy, rfl, rfl⟩ | ⟨-, rfl⟩
  · exact hsame x y hxy
  · exact h

theorem Node.RootAlikeBy.symm {n m : Node} (h : n.RootAlikeBy same m) : m.RootAlikeBy same n where
  kind := h.kind.symm
  id := h.id.symm
  slots := (h.slots.imp fun _ _ hst => ⟨hst.label.symm, hst.value.symm hsame⟩).flip

theorem Node.AlikeBy.symm {a b : Node} (h : a.AlikeBy same b) : b.AlikeBy same a := by
  refine Node.AlikeBy.induction (fun n m hnm hbelow => ?_) h
  exact .intro (hnm.root.symm hsame) hbelow.flip

end Symmetric

section Transitive

variable (hsame : ∀ x y z, same x y → same y z → same x z)

include hsame

theorem SlotValue.AlikeBy.trans {u v w : SlotValue} (huv : u.AlikeBy same v)
    (hvw : v.AlikeBy same w) : u.AlikeBy same w := by
  rcases SlotValue.alikeBy_iff.mp huv with ⟨x, y, hxy, rfl, rfl⟩ | ⟨-, rfl⟩
  · rcases SlotValue.alikeBy_iff.mp hvw with ⟨y', z, hyz, hy, rfl⟩ | ⟨hnone, -⟩
    · cases hy
      exact hsame x y z hxy hyz
    · cases hnone
  · exact hvw

theorem Node.RootAlikeBy.trans {n m k : Node} (hnm : n.RootAlikeBy same m)
    (hmk : m.RootAlikeBy same k) : n.RootAlikeBy same k where
  kind := hnm.kind.trans hmk.kind
  id := hnm.id.trans hmk.id
  slots := forall₂_trans (fun hst htu =>
    ⟨hst.label.trans htu.label, hst.value.trans hsame htu.value⟩) hnm.slots hmk.slots

theorem Node.AlikeBy.trans {a b c : Node} (hab : a.AlikeBy same b) (hbc : b.AlikeBy same c) :
    a.AlikeBy same c := by
  have extended : ∀ k, b.AlikeBy same k → a.AlikeBy same k := by
    refine Node.AlikeBy.induction (fun n m hnm hbelow k hmk => ?_) hab
    exact .intro (hnm.root.trans hsame hmk.root)
      (forall₂_trans (fun hcd hde => hcd _ hde) hbelow hmk.children)
  exact extended c hbc

end Transitive

/-! ## Trees that are alike to themselves -/

theorem SlotValue.alikeBy_self_iff {v : SlotValue} :
    v.AlikeBy same v ↔ ∀ x, v.float? = some x → same x x := by
  rw [SlotValue.alikeBy_iff]
  constructor
  · rintro (⟨x, y, hxy, rfl, hy⟩ | ⟨hnone, -⟩) z hz
    · cases hy
      cases hz
      exact hxy
    · rw [hnone] at hz
      cases hz
  · intro h
    cases hv : v.float? with
    | none => exact Or.inr ⟨rfl, rfl⟩
    | some x =>
      have hvalue := SlotValue.eq_of_float? hv
      exact Or.inl ⟨x, x, h x hv, hvalue, hvalue⟩

/-- Doubles stand in the slots of literals only. -/
theorem Node.exists_float_slot_iff {n : Node} {x : Binary64} :
    (∃ s ∈ n.slots, s.value.float? = some x) ↔ ∃ id, n = .literal id (.float x) := by
  cases n with
  | literal id value => cases value <;> simp [slots, SlotValue.float?]
  | _ => simp [slots, SlotValue.float?]

theorem Node.rootAlikeBy_self_iff {n : Node} :
    n.RootAlikeBy same n ↔ ∀ id x, n = .literal id (.float x) → same x x := by
  constructor
  · intro h id x hn
    obtain ⟨s, hs, hx⟩ := Node.exists_float_slot_iff.mpr ⟨id, hn⟩
    exact SlotValue.alikeBy_self_iff.mp (List.forall₂_same.mp h.slots s hs).value x hx
  · intro h
    refine ⟨rfl, rfl, List.forall₂_same.mpr fun s hs => ⟨rfl, ?_⟩⟩
    rw [SlotValue.alikeBy_self_iff]
    intro x hx
    obtain ⟨id, hn⟩ := Node.exists_float_slot_iff.mp ⟨s, hs, hx⟩
    exact h id x hn

theorem Node.alikeBy_self_iff {a : Node} :
    a.AlikeBy same a ↔ ∀ id x, Node.literal id (.float x) ∈ a.preorder → same x x := by
  induction a using Node.induction with
  | step a ih =>
    have children : List.Forall₂ (Node.AlikeBy same) a.children a.children ↔
        ∀ c ∈ a.children, ∀ id x, Node.literal id (.float x) ∈ c.preorder → same x x := by
      rw [List.forall₂_same]
      exact forall₂_congr ih
    have unfolded : a.AlikeBy same a ↔ a.RootAlikeBy same a ∧
        List.Forall₂ (Node.AlikeBy same) a.children a.children :=
      ⟨fun h => ⟨h.root, h.children⟩, fun h => .intro h.1 h.2⟩
    rw [unfolded, Node.rootAlikeBy_self_iff, children, a.preorder_eq]
    simp only [List.mem_cons, List.mem_flatMap]
    constructor
    · rintro ⟨hroot, hbelow⟩ id x (hx | ⟨c, hc, hx⟩)
      · exact hroot id x hx.symm
      · exact hbelow c hc id x hx
    · intro h
      exact ⟨fun id x hx => h id x (Or.inl hx.symm),
        fun c hc id x hx => h id x (Or.inr ⟨c, hc, hx⟩)⟩

/-! ## Equality is alikeness -/

theorem allPairs_iff_forall₂ {α γ : Type} {r : α → γ → Bool} {R : α → γ → Prop} {as : List α}
    {cs : List γ} (h : ∀ a ∈ as, ∀ c, r a c = true ↔ R a c) :
    allPairs r as cs = true ↔ List.Forall₂ R as cs := by
  induction as generalizing cs with
  | nil => cases cs <;> simp [allPairs]
  | cons a as ih =>
    cases cs with
    | nil => simp [allPairs]
    | cons c cs =>
      rw [allPairs, Bool.and_eq_true, List.forall₂_cons, h a List.mem_cons_self c,
        ih fun b hb => h b (List.mem_cons_of_mem a hb)]

/-- The doubles are equal as numbers. -/
def Binary64.IeeeEq (x y : Binary64) : Prop := x.ieeeEq y = true

theorem LiteralValue.ieeeEq_iff {v w : LiteralValue} :
    v.ieeeEq w = true ↔ v.AlikeBy Binary64.IeeeEq w := by
  cases v with
  | float x =>
    cases w with
    | float y => rfl
    | _ => exact beq_iff_eq
  | _ => exact beq_iff_eq

theorem SlotValue.ieeeEq_iff {v w : SlotValue} :
    v.ieeeEq w = true ↔ v.AlikeBy Binary64.IeeeEq w := by
  cases v with
  | literal v =>
    cases w with
    | literal w => exact LiteralValue.ieeeEq_iff
    | _ => exact beq_iff_eq
  | _ => exact beq_iff_eq

theorem Slot.ieeeEq_iff {s t : Slot} : s.ieeeEq t = true ↔ s.AlikeBy Binary64.IeeeEq t := by
  rw [Slot.ieeeEq, Bool.and_eq_true, beq_iff_eq, SlotValue.ieeeEq_iff]
  exact ⟨fun h => ⟨h.1, h.2⟩, fun h => ⟨h.label, h.value⟩⟩

theorem Node.rootEq_iff {n m : Node} :
    n.rootEq m = true ↔ n.RootAlikeBy Binary64.IeeeEq m := by
  rw [Node.rootEq, Bool.and_eq_true, Bool.and_eq_true, beq_iff_eq, beq_iff_eq,
    allPairs_iff_forall₂ fun _ _ _ => Slot.ieeeEq_iff]
  exact ⟨fun h => ⟨h.1.1, h.1.2, h.2⟩, fun h => ⟨⟨h.kind, h.id⟩, h.slots⟩⟩

theorem Node.ieeeEq_iff {a b : Node} :
    a.ieeeEq b = true ↔ a.AlikeBy Binary64.IeeeEq b := by
  induction a using Node.induction generalizing b with
  | step a ih =>
    rw [Node.ieeeEq_eq, Bool.and_eq_true, Node.rootEq_iff,
      allPairs_iff_forall₂ fun c hc _ => ih c hc]
    exact ⟨fun h => .intro h.1 h.2, fun h => ⟨h.root, h.children⟩⟩

/-! ## What alike trees share -/

/-- What a signal tells without the content of the node. -/
def Signal.label (g : Signal) : Phase × NodeId × NodeKind := (g.phase, g.node.id, g.node.kind)

theorem Ancestry.Builder.receive_of_label {g k : Signal} (b : Builder) (h : g.label = k.label) :
    b.receive g = b.receive k := by
  have hphase : g.phase = k.phase := congrArg Prod.fst h
  have hid : g.node.id = k.node.id := congrArg (fun label => label.2.1) h
  rw [receive, receive, hphase, hid]

theorem Function.signature_of_alikeBy {f g : Function}
    (h : (Node.function f).RootAlikeBy same (.function g)) :
    f.parameters = g.parameters ∧ f.variadic = g.variadic := by
  obtain ⟨parameters, hrest⟩ := List.forall₂_cons.mp h.slots
  obtain ⟨variadic, -⟩ := List.forall₂_cons.mp hrest
  exact ⟨SlotValue.names.inj parameters.value, SlotValue.flag.inj variadic.value⟩

namespace Node.AlikeBy

variable {a b n m : Node}

theorem looksLike (h : n.AlikeBy same m) : n.LooksLike m := by
  have kind := h.root.kind
  cases n with
  | importDeclaration i =>
    cases m with
    | importDeclaration j =>
      obtain ⟨name, -⟩ := List.forall₂_cons.mp h.root.slots
      exact .importDeclaration h.root.id (SlotValue.name.inj name.value)
    | _ => cases kind
  | functionDeclaration d =>
    cases m with
    | functionDeclaration e =>
      obtain ⟨name, -⟩ := List.forall₂_cons.mp h.root.slots
      obtain ⟨function, -⟩ := List.forall₂_cons.mp h.children
      have arity := congrArg List.length (Function.signature_of_alikeBy function.root).1
      exact .functionDeclaration h.root.id (SlotValue.name.inj name.value) arity
    | _ => cases kind
  | function f =>
    cases m with
    | function g =>
      obtain ⟨parameters, variadic⟩ := Function.signature_of_alikeBy h.root
      exact .function h.root.id parameters variadic
    | _ => cases kind
  | _ =>
    refine .plain h.root.id rfl ?_
    cases m with
    | importDeclaration | functionDeclaration | function => cases kind
    | _ => rfl

theorem preorder (h : a.AlikeBy same b) :
    List.Forall₂ Node.LooksLike a.preorder b.preorder := by
  refine Node.AlikeBy.induction (fun n m hnm hbelow => ?_) h
  rw [n.preorder_eq, m.preorder_eq]
  exact .cons hnm.looksLike (List.rel_flatMap hbelow fun _ _ hcd => hcd)

theorem signals (h : a.AlikeBy same b) :
    List.Forall₂ (fun g k => g.label = k.label) a.signals b.signals := by
  refine Node.AlikeBy.induction (fun n m hnm hbelow => ?_) h
  have label : ∀ phase, (Signal.mk phase n).label = (Signal.mk phase m).label := by
    intro phase
    rw [Signal.label, Signal.label, hnm.root.id, hnm.root.kind]
  rw [n.signals_eq, m.signals_eq]
  exact .cons (label .arrive) (.cons (label .enter)
    (List.rel_append (List.rel_flatMap hbelow fun _ _ hcd => hcd)
      (.cons (label .leave) (.cons (label .depart) .nil))))

theorem ancestry (h : a.AlikeBy same b) : Ancestry.ofTree a = Ancestry.ofTree b := by
  have built : a.signals.foldl Ancestry.Builder.receive .empty =
      b.signals.foldl Ancestry.Builder.receive .empty := by
    refine List.rel_foldl (P := Eq) ?_ rfl h.signals
    rintro c _ rfl g k hlabel
    exact c.receive_of_label hlabel
  rw [Ancestry.ofTree, Ancestry.ofTree, built]

end Node.AlikeBy

/-! ## Equality -/

/-- Equality of trees is symmetric and transitive.  A tree is equal to itself exactly if no
literal in it is a NaN.  A walk, a check and an ancestry do not tell equal trees apart. -/
theorem ieeeEq_congruence (a b c : Node) :
    a.ieeeEq b = b.ieeeEq a ∧
      (a.ieeeEq b = true → b.ieeeEq c = true → a.ieeeEq c = true) ∧
      (a.ieeeEq a = true ↔
        ∀ id x, Node.literal id (.float x) ∈ a.preorder → x.isNaN = false) ∧
      (a.ieeeEq b = true →
        a.signals.map Signal.label = b.signals.map Signal.label ∧
          (∀ o : Options, errors o a = errors o b) ∧
          Ancestry.ofTree a = Ancestry.ofTree b) := by
  have symm : ∀ x y : Binary64, x.IeeeEq y → y.IeeeEq x :=
    fun x y hxy => (Binary64.ieeeEq_symm y x).trans hxy
  have trans : ∀ x y z : Binary64, x.IeeeEq y → y.IeeeEq z → x.IeeeEq z :=
    fun _ _ _ => Binary64.ieeeEq_trans
  have self : ∀ x : Binary64, x.IeeeEq x ↔ x.isNaN = false := by
    intro x
    rw [Binary64.IeeeEq, x.ieeeEq_self, Bool.not_eq_true']
  refine ⟨?_, ?_, ?_, ?_⟩
  · rw [Bool.eq_iff_iff, Node.ieeeEq_iff, Node.ieeeEq_iff]
    exact ⟨Node.AlikeBy.symm symm, Node.AlikeBy.symm symm⟩
  · intro hab hbc
    rw [Node.ieeeEq_iff] at hab hbc ⊢
    exact hab.trans trans hbc
  · rw [Node.ieeeEq_iff, Node.alikeBy_self_iff]
    simp only [self]
  · intro h
    have alike := Node.ieeeEq_iff.mp h
    refine ⟨map_eq_of_forall₂ id alike.signals, fun o => ?_, alike.ancestry⟩
    rw [errors_eq_cut, errors_eq_cut, findings_of_looksLike alike.preorder]

/-- Trees that differ in the sign of a zero, and one that holds a NaN. -/
theorem ieeeEq_congruence_zeros :
    let t (x : Binary64) : Node := .returnStatement ⟨1⟩
      (some (.functionInvocation ⟨1⟩ "f" [.literal ⟨2⟩ (.float x), .reference ⟨2⟩ "x"]))
    let zero : Binary64 := ⟨0⟩
    let minus : Binary64 := ⟨0x8000000000000000⟩
    let nan : Binary64 := ⟨0x7ff8000000000000⟩
    zero ≠ minus ∧ (t zero).ieeeEq (t minus) = true ∧ (t zero).ieeeEq (t zero) = true ∧
      (∀ o : Options, errors o (t zero) = errors o (t minus)) ∧
      Ancestry.ofTree (t zero) = Ancestry.ofTree (t minus) ∧
      (t nan).ieeeEq (t nan) = false := by
  intro t zero minus nan
  have equal : (t zero).ieeeEq (t minus) = true := by decide
  obtain ⟨symm, trans, -, shared⟩ := ieeeEq_congruence (t zero) (t minus) (t zero)
  obtain ⟨-, errors, ancestry⟩ := shared equal
  obtain ⟨-, -, self, -⟩ := ieeeEq_congruence (t nan) (t nan) (t nan)
  have notSelf : (t nan).ieeeEq (t nan) ≠ true := by
    intro h
    have literal : Node.literal ⟨2⟩ (.float nan) ∈ (t nan).preorder := by
      simp [t, Node.preorder_eq, Node.children]
    exact absurd (self.mp h ⟨2⟩ nan literal) (by decide)
  exact ⟨by decide, equal, trans equal (symm ▸ equal), errors, ancestry,
    Bool.eq_false_of_not_eq_true notSelf⟩

end TreeCheck
