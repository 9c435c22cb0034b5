import VbOutline.Text.Decimal

/-!
# Decimal numbers are read back

A number is written with digits only, at least one of them, and reading the digits gives it back if
it is below the bound. What is read is always below the bound.
-/

namespace VbOutline.Text

theorem isAsciiDigit_digitChar : ∀ n < 10, isAsciiDigit (digitChar n) := by
  decide

theorem digitValue_digitChar : ∀ n < 10, digitValue (digitChar n) = n := by
  decide

theorem decimal_ne_nil (n : Nat) : decimal n ≠ [] := by
  rw [decimal]
  split <;> simp

theorem isAsciiDigit_of_mem_decimal {n : Nat} : ∀ c ∈ decimal n, isAsciiDigit c := by
  fun_induction decimal n with
  | case1 n hn =>
    rintro c hc
    obtain rfl := List.mem_singleton.1 hc
    exact isAsciiDigit_digitChar n hn
  | case2 n hn ih =>
    rw [List.forall_mem_append]
    refine ⟨ih, fun c hc ↦ ?_⟩
    obtain rfl := List.mem_singleton.1 hc
    exact isAsciiDigit_digitChar _ (by omega)

theorem foldl_decimal (n : Nat) : (decimal n).foldl (fun n c ↦ n * 10 + digitValue c) 0 = n := by
  fun_induction decimal n with
  | case1 n hn =>
    rw [List.foldl_cons, List.foldl_nil, digitValue_digitChar n hn]
    omega
  | case2 n hn ih =>
    rw [List.foldl_append, ih, List.foldl_cons, List.foldl_nil, digitValue_digitChar _ (by omega)]
    omega

theorem digits?_decimal (n : Nat) : digits? (decimal n) = some n := by
  have hdigits : (!(decimal n).isEmpty && (decimal n).all isAsciiDigit) = true := by
    simpa [decimal_ne_nil] using isAsciiDigit_of_mem_decimal
  rw [digits?, if_pos hdigits, foldl_decimal]

theorem not_mem_decimal {c : Char} (h : isAsciiDigit c = false) (n : Nat) : c ∉ decimal n := by
  intro hc
  rw [isAsciiDigit_of_mem_decimal c hc] at h
  cases h

/-- A number below the bound is read back. -/
theorem unsigned?_decimal {bound n : Nat} (h : n < bound) : unsigned? bound (decimal n) = some n := by
  unfold unsigned?
  split
  · next rest hplus =>
    have hsign : '+' ∉ decimal n := not_mem_decimal (by decide) n
    rw [hplus] at hsign
    exact absurd List.mem_cons_self hsign
  · simp [digits?_decimal, Option.filter_some, h]

theorem lt_of_unsigned?_eq_some {bound n : Nat} {s : Text} (h : unsigned? bound s = some n) :
    n < bound := by
  unfold unsigned? at h
  exact of_decide_eq_true (Option.filter_eq_some_iff.1 h).2

end VbOutline.Text
