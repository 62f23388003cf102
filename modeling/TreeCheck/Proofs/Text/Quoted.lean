import TreeCheck.Proofs.Text.Legible
import TreeCheck.Text.Quoted

/-!
# Quoted text is legible

Three kinds of escape stand for a character, and the first two characters tell which:
a character that is not a backslash stands for itself, and after a backslash only a
numeric escape goes on with `u`.  So no escape is the start of another, and none starts
with a quote, which is what ends the text (`append_inj_of_quote`).

Whatever a text holds, its quoted form is printable (`printable_quote`) and so stays on one
line.
-/

namespace TreeCheck
namespace Text

/-! ## Digits -/

theorem mem_toDigits {b n : Nat} (hb : 1 < b) {c : Char} (h : c ∈ Nat.toDigits b n) :
    ∃ d < b, c = d.digitChar := by
  induction n using Nat.strongRecOn with
  | _ n ih =>
    rw [Nat.toDigits_eq_if hb] at h
    by_cases hn : n < b
    · rw [if_pos hn, List.mem_singleton] at h
      exact ⟨n, hn, h⟩
    · rw [if_neg hn, List.mem_append, List.mem_singleton] at h
      rcases h with h | h
      · exact ih (n / b) (Nat.div_lt_self (by omega) hb) h
      · exact ⟨n % b, Nat.mod_lt n (by omega), h⟩

theorem digitChar_inj {d e : Nat} (hd : d < 16) (he : e < 16) (h : d.digitChar = e.digitChar) :
    d = e := by
  have all : ∀ d < 16, ∀ e < 16, d.digitChar = e.digitChar → d = e := by decide
  exact all d hd e he h

theorem toDigits_inj {b m n : Nat} (hb : 1 < b) (hb' : b ≤ 16)
    (h : Nat.toDigits b m = Nat.toDigits b n) : m = n := by
  induction m using Nat.strongRecOn generalizing n with
  | _ m ih =>
    rw [Nat.toDigits_eq_if hb, Nat.toDigits_eq_if (n := n) hb] at h
    by_cases hm : m < b
    · by_cases hn : n < b
      · rw [if_pos hm, if_pos hn, List.singleton_inj] at h
        exact digitChar_inj (by omega) (by omega) h
      · rw [if_pos hm, if_neg hn, List.singleton_eq_append_iff] at h
        simp [Nat.toDigits_ne_nil] at h
    · by_cases hn : n < b
      · rw [if_neg hm, if_pos hn, List.append_eq_singleton_iff] at h
        simp [Nat.toDigits_ne_nil] at h
      · rw [if_neg hm, if_neg hn] at h
        obtain ⟨hquotient, hlast⟩ := List.append_inj' h rfl
        have hdiv : m / b = n / b := ih (m / b) (Nat.div_lt_self (by omega) hb) hquotient
        have hmod : m % b = n % b := by
          have hm' := Nat.mod_lt m (by omega : 0 < b)
          have hn' := Nat.mod_lt n (by omega : 0 < b)
          exact digitChar_inj (by omega) (by omega) (List.singleton_inj.mp hlast)
        rw [← Nat.div_add_mod m b, ← Nat.div_add_mod n b, hdiv, hmod]

theorem brace_notMem_toDigits (n : Nat) : '}' ∉ Nat.toDigits 16 n := by
  intro h
  obtain ⟨d, hd, hc⟩ := mem_toDigits (by decide) h
  have none : ∀ d < 16, '}' ≠ d.digitChar := by decide
  exact none d hd hc

/-! ## Escapes -/

/-- The characters with a short escape, and what stands after the backslash. -/
def shortEscapes : List (Char × Char) :=
  [('"', '"'), ('\\', '\\'), ('\t', 't'), ('\r', 'r'), ('\n', 'n'), ('\x00', '0')]

theorem mem_shortEscapes {c e : Char} (h : shortEscape? c = some e) : (c, e) ∈ shortEscapes := by
  unfold shortEscape? at h
  split at h <;> cases h <;> decide

theorem shortEscape?_inj {c d e : Char} (hc : shortEscape? c = some e)
    (hd : shortEscape? d = some e) : c = d := by
  have different : ∀ p ∈ shortEscapes, ∀ q ∈ shortEscapes, p.2 = q.2 → p.1 = q.1 := by decide
  exact different _ (mem_shortEscapes hc) _ (mem_shortEscapes hd) rfl

theorem ne_u_of_shortEscape? {c e : Char} (h : shortEscape? c = some e) : e ≠ 'u' := by
  have none : ∀ p ∈ shortEscapes, p.2 ≠ 'u' := by decide
  exact none _ (mem_shortEscapes h)

/-- How a character stands in a quoted text. -/
inductive Escaped (c : Char) : List Char → Prop
  | short {e : Char} (h : shortEscape? c = some e) : Escaped c ['\\', e]
  | itself (h : shortEscape? c = none) (printable : isPrintable c = true) : Escaped c [c]
  | numeric : Escaped c (numericEscape c)

theorem escaped_escape (c : Char) : Escaped c (escape c) := by
  unfold escape
  cases h : shortEscape? c with
  | some e => exact .short h
  | none =>
    simp only
    split
    next hshown =>
      rw [showsAsItself, Bool.and_eq_true, Bool.and_eq_true] at hshown
      exact .itself h hshown.1.1
    next => exact .numeric

theorem numericEscape_append_inj {c d : Char} {r s : List Char}
    (h : numericEscape c ++ r = numericEscape d ++ s) : c = d ∧ r = s := by
  have h' : Nat.toDigits 16 c.toNat ++ '}' :: r = Nat.toDigits 16 d.toNat ++ '}' :: s := by
    simpa [numericEscape] using h
  have digits : ∀ c : Char, MadeOf (· != '}') (Nat.toDigits 16 c.toNat) := by
    intro c x hx
    exact bne_iff_ne.mpr fun he => brace_notMem_toDigits c.toNat (he ▸ hx)
  obtain ⟨hdigits, hrest⟩ := append_inj_of_stopsAt (digits c) (digits d)
    (stopsAt_cons (by decide) r) (stopsAt_cons (by decide) s) h'
  exact ⟨Char.toNat_inj.mp (toDigits_inj (by decide) (by decide) hdigits),
    (List.cons.inj hrest).2⟩

theorem escape_append_inj {c d : Char} {r s : List Char} (h : escape c ++ r = escape d ++ s) :
    c = d ∧ r = s := by
  have hback : ∀ {c : Char}, shortEscape? c = none → c ≠ '\\' := by
    rintro c hc rfl
    cases hc
  obtain hc := escaped_escape c
  obtain hd := escaped_escape d
  generalize escape c = x at h hc
  generalize escape d = y at h hd
  cases hc with
  | short hc =>
    cases hd with
    | short hd =>
      simp only [List.cons_append, List.nil_append, List.cons.injEq, true_and] at h
      exact ⟨shortEscape?_inj hc (h.1 ▸ hd), h.2⟩
    | itself hd => exact absurd (List.cons.inj h).1.symm (hback hd)
    | numeric =>
      simp only [numericEscape, List.cons_append, List.nil_append, List.cons.injEq, true_and] at h
      exact absurd h.1 (ne_u_of_shortEscape? hc)
  | itself hc =>
    cases hd with
    | short hd => exact absurd (List.cons.inj h).1 (hback hc)
    | itself hd => exact List.cons.inj h
    | numeric => exact absurd (List.cons.inj h).1 (hback hc)
  | numeric =>
    cases hd with
    | short hd =>
      simp only [numericEscape, List.cons_append, List.nil_append, List.cons.injEq, true_and] at h
      exact absurd h.1.symm (ne_u_of_shortEscape? hd)
    | itself hd => exact absurd (List.cons.inj h).1.symm (hback hd)
    | numeric => exact numericEscape_append_inj h

/-- No escape starts with a quote. -/
theorem quote_cons_ne_escape_append (c : Char) (r s : List Char) : '"' :: r ≠ escape c ++ s := by
  intro h
  have hc := escaped_escape c
  generalize escape c = x at h hc
  cases hc with
  | short hc => exact absurd (List.cons.inj h).1 (by decide)
  | itself hc =>
    rw [← (List.cons.inj h).1] at hc
    cases hc
  | numeric => exact absurd (List.cons.inj h).1 (by decide)

/-! ## Quoted texts -/

theorem escapeAll_append_inj {cs ds r s : List Char}
    (h : escapeAll cs ++ '"' :: r = escapeAll ds ++ '"' :: s) : cs = ds ∧ r = s := by
  induction cs generalizing ds with
  | nil =>
    cases ds with
    | nil => exact ⟨rfl, (List.cons.inj h).2⟩
    | cons d ds =>
      rw [escapeAll_cons, List.append_assoc] at h
      exact absurd h (quote_cons_ne_escape_append d r _)
  | cons c cs ih =>
    cases ds with
    | nil =>
      rw [escapeAll_cons, List.append_assoc] at h
      exact absurd h.symm (quote_cons_ne_escape_append c s _)
    | cons d ds =>
      rw [escapeAll_cons, escapeAll_cons, List.append_assoc, List.append_assoc] at h
      obtain ⟨hcd, hrest⟩ := escape_append_inj h
      obtain ⟨hcs, hrs⟩ := ih hrest
      exact ⟨by rw [hcd, hcs], hrs⟩

theorem toList_quote (s : String) : (quote s).toList = '"' :: (escapeAll s.toList ++ ['"']) :=
  String.toList_ofList

theorem legible_quote : Legible (· = ·) fun s => (quote s).toList := by
  intro s t r u _ _ h
  have h' : escapeAll s.toList ++ '"' :: r = escapeAll t.toList ++ '"' :: u := by
    simpa [toList_quote] using h
  obtain ⟨hst, hru⟩ := escapeAll_append_inj h'
  exact ⟨String.toList_inj.mp hst, hru⟩

theorem toList_quoteList (ss : List String) :
    (quoteList ss).toList =
      '[' :: ([',', ' '].intercalate (ss.map fun s => (quote s).toList) ++ [']']) := by
  simp [quoteList, String.toList_intercalate, Function.comp_def]

theorem legible_quoteList : Legible (· = ·) fun ss => (quoteList ss).toList := by
  have hlist := legible_quote.bracketed '"' (by decide) fun s => by
    rw [toList_quote, List.head?_cons]
  simp only [toList_quoteList]
  rwa [List.forall₂_eq_eq_eq] at hlist

/-! ## Nothing but printable characters -/

theorem printable_numericEscape (c : Char) : MadeOf isPrintable (numericEscape c) := by
  have digits : MadeOf isPrintable (Nat.toDigits 16 c.toNat) := by
    intro d hd
    obtain ⟨n, hn, rfl⟩ := mem_toDigits (by decide) hd
    have all : ∀ n < 16, isPrintable n.digitChar = true := by decide
    exact all n hn
  have before : MadeOf isPrintable ['\\', 'u', '{'] := by decide
  have after : MadeOf isPrintable ['}'] := by decide
  exact before.append (digits.append after)

theorem printable_escape (c : Char) : MadeOf isPrintable (escape c) := by
  have hc := escaped_escape c
  generalize escape c = x at hc
  cases hc with
  | short hc =>
    have all : ∀ p ∈ shortEscapes, MadeOf isPrintable ['\\', p.2] := by decide
    exact all _ (mem_shortEscapes hc)
  | itself _ printable =>
    intro d hd
    rw [List.mem_singleton.mp hd]
    exact printable
  | numeric => exact printable_numericEscape c

theorem printable_quote (s : String) : MadeOf isPrintable (quote s).toList := by
  have escapes : MadeOf isPrintable (escapeAll s.toList) := by
    intro c hc
    obtain ⟨d, _, hd⟩ := List.mem_flatMap.mp hc
    exact printable_escape d c hd
  have mark : MadeOf isPrintable ['"'] := by decide
  rw [toList_quote]
  exact mark.append (escapes.append mark)

theorem isInline_of_isPrintable (c : Char) (h : isPrintable c = true) : isInline c = true := by
  simp only [isInline, Bool.and_eq_true, bne_iff_ne]
  constructor
  · rintro rfl
    cases h
  · rintro rfl
    cases h

theorem inline_quote (s : String) : MadeOf isInline (quote s).toList :=
  (printable_quote s).imp isInline_of_isPrintable

theorem inline_quoteList (ss : List String) : MadeOf isInline (quoteList ss).toList := by
  rw [toList_quoteList]
  apply inline_bracketed
  intro x hx
  obtain ⟨s, _, rfl⟩ := List.mem_map.mp hx
  exact inline_quote s

end Text
end TreeCheck
