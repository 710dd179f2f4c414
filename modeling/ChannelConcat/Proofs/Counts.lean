import ChannelConcat.Tensor.Count
import Mathlib.Algebra.Order.BigOperators.Group.List
import Mathlib.Algebra.Order.Group.Nat
import Mathlib.Algebra.Ring.Nat

/-!
# Counts of elements and channels

Sums, and counts of positions and elements, against the exact numbers they stand for. A product from
the left is a fault as soon as it leaves the range of sizes, so a dimension of zero behind a large
product does not save it. Main statements: `Size.sum_eq_ok_iff`, `Size.foldlM_mul_cases`,
`Tensor.elements?_eq_some_iff`, `Tensor.pixels_eq_error_iff`, `Tensor.counts_exact`.
-/

namespace ChannelConcat

namespace Size

/-- A product that is not computed is no size. -/
theorem mul_eq_error_iff {a b : Nat} {fault : Fault} :
    mul a b = .error fault ↔ limit ≤ a * b ∧ fault = .product := by
  unfold mul
  split
  · simp only [reduceCtorEq, false_iff, not_and]
    omega
  · simp only [Except.error.injEq, eq_comm, iff_and_self]
    omega

/-- An operation is another one of numbers where that one gives a size, and else it is a fault. -/
def IsChecked (op : Nat → Nat → Except Fault Nat) (f : Nat → Nat → Nat) (fault : Fault) : Prop :=
  ∀ a b, op a b = if f a b < limit then .ok (f a b) else .error fault

/-- Products are checked. -/
theorem isChecked_mul : IsChecked mul (· * ·) .product :=
  fun _ _ => rfl

/-- Sums are checked. -/
theorem isChecked_add : IsChecked add (· + ·) .sum :=
  fun _ _ => rfl

/-- A checked operation that is run from the left, begun with a size, gives what the other operation
gives where all values on the way are sizes, and is a fault where one of them is not. -/
theorem IsChecked.foldlM_cases {op : Nat → Nat → Except Fault Nat} {f : Nat → Nat → Nat}
    {fault : Fault} (h : IsChecked op f fault) (sizes : List Nat) {start : Nat}
    (hstart : start < limit) :
    (sizes.foldlM op start = .ok (sizes.foldl f start) ∧
        ∀ front, front <+: sizes → front.foldl f start < limit) ∨
      (sizes.foldlM op start = .error fault ∧
        ∃ front, front <+: sizes ∧ limit ≤ front.foldl f start) := by
  induction sizes generalizing start with
  | nil => exact .inl ⟨rfl, fun front hfront => by rwa [List.prefix_nil.1 hfront]⟩
  | cons size sizes ih =>
      rw [List.foldlM_cons, h]
      by_cases hnext : f start size < limit
      · rw [if_pos hnext]
        rcases ih hnext with ⟨hok, hfronts⟩ | ⟨herror, front, hfront, hlimit⟩
        · refine .inl ⟨hok, ?_⟩
          intro front hfront
          rcases List.prefix_cons_iff.1 hfront with rfl | ⟨rest, rfl, hrest⟩
          · exact hstart
          · exact hfronts rest hrest
        · exact .inr ⟨herror, size :: front, List.cons_prefix_cons.2 ⟨rfl, hfront⟩, hlimit⟩
      · rw [if_neg hnext]
        exact .inr ⟨rfl, [size], List.cons_prefix_cons.2 ⟨rfl, List.nil_prefix⟩,
          Nat.le_of_not_lt hnext⟩

/-- A sum is computed exactly where it is a size, and is a fault where it is not. -/
theorem sum_cases (sizes : List Nat) :
    (sum sizes = .ok sizes.sum ∧ sizes.sum < limit) ∨
      (sum sizes = .error .sum ∧ limit ≤ sizes.sum) := by
  have hzero : 0 < limit := by decide
  rcases isChecked_add.foldlM_cases sizes hzero with
    ⟨hok, hfronts⟩ | ⟨herror, front, hfront, hlimit⟩
  · rw [List.sum_eq_foldl]
    exact .inl ⟨hok, hfronts sizes List.prefix_rfl⟩
  · rw [← List.sum_eq_foldl] at hlimit
    have hlarger := hfront.sublist.sum_le_sum fun size _ => Nat.zero_le size
    exact .inr ⟨herror, Nat.le_trans hlimit hlarger⟩

/-- A sum is computed exactly if it is a size. -/
theorem sum_eq_ok_iff {sizes : List Nat} {total : Nat} :
    sum sizes = .ok total ↔ sizes.sum = total ∧ total < limit := by
  rcases sum_cases sizes with ⟨hok, hlt⟩ | ⟨herror, hlimit⟩
  · rw [hok, Except.ok.injEq, iff_self_and]
    rintro rfl
    exact hlt
  · simp only [herror, reduceCtorEq, false_iff, not_and]
    omega

/-- A sum that is not computed is no size. -/
theorem sum_eq_error_of_le {sizes : List Nat} (h : limit ≤ sizes.sum) :
    sum sizes = .error .sum := by
  rcases sum_cases sizes with ⟨-, hlt⟩ | ⟨herror, -⟩
  · exact absurd h (Nat.not_le.2 hlt)
  · exact herror

/-- A sum is found exactly if it is a size. -/
theorem sum?_eq_some_iff {sizes : List Nat} {total : Nat} :
    sum? sizes = some total ↔ sizes.sum = total ∧ total < limit := by
  rw [← sum_eq_ok_iff, sum?]
  cases sum sizes <;> simp [Except.toOption]

/-- A product from the left is computed exactly where all products on the way are sizes, and is a
fault where one of them is not. -/
theorem foldlM_mul_cases (sizes : List Nat) :
    (sizes.foldlM mul 1 = .ok sizes.prod ∧ ∀ front, front <+: sizes → front.prod < limit) ∨
      (sizes.foldlM mul 1 = .error .product ∧ ∃ front, front <+: sizes ∧ limit ≤ front.prod) := by
  have hone : 1 < limit := by decide
  simp only [List.prod_eq_foldl]
  exact isChecked_mul.foldlM_cases sizes hone

/-- Where no factor is zero, the product of the first ones is at most that of all. -/
theorem prod_front_le {sizes front : List Nat} (hsizes : 0 ∉ sizes) (hfront : front <+: sizes) :
    front.prod ≤ sizes.prod :=
  hfront.sublist.prod_le_prod' fun _ hsize =>
    Nat.pos_of_ne_zero fun hzero => hsizes (hzero ▸ hsize)

/-- A product from the left of factors that are not zero is computed exactly if it is a size. -/
theorem foldlM_mul_eq_ok_iff {sizes : List Nat} {total : Nat} (hsizes : 0 ∉ sizes) :
    sizes.foldlM mul 1 = .ok total ↔ sizes.prod = total ∧ total < limit := by
  rcases foldlM_mul_cases sizes with ⟨hok, hfronts⟩ | ⟨herror, front, hfront, hlimit⟩
  · have hlt := hfronts sizes List.prefix_rfl
    rw [hok, Except.ok.injEq, iff_self_and]
    rintro rfl
    exact hlt
  · -- Factors that are not zero do not bring the product back into range.
    have hlarger := prod_front_le hsizes hfront
    simp only [herror, reduceCtorEq, false_iff, not_and]
    omega

end Size

namespace Tensor

/-- The exact number of positions. -/
def positions (tensor : Tensor) : Nat :=
  tensor.dims.batch * tensor.dims.height * tensor.dims.width

/-- The product of all dimensions is the exact number of elements. -/
theorem prod_toList (tensor : Tensor) :
    tensor.dims.toList.prod = tensor.positions * tensor.channels := by
  simp [Dims.toList, positions, channels, Nat.mul_assoc]

/-- The number of elements is found exactly if it is a size. -/
theorem elements?_eq_some_iff {tensor : Tensor} {n : Nat} :
    tensor.elements? = some n ↔ tensor.positions * tensor.channels = n ∧ n < Size.limit := by
  rw [← prod_toList, elements?]
  -- A dimension of zero settles the count before any product is computed.
  split
  · rename_i hzero
    have hprod : tensor.dims.toList.prod = 0 :=
      List.prod_eq_zero_iff_exists_zero_nat.2 ⟨0, hzero, rfl⟩
    rw [hprod, Option.some.injEq, iff_self_and]
    rintro rfl
    decide
  · rename_i hzero
    rw [← Size.foldlM_mul_eq_ok_iff hzero]
    cases tensor.dims.toList.foldlM Size.mul 1 <;> simp [Except.toOption]

/-- The number of elements is found if it is a size. -/
theorem elements?_ne_none_iff {tensor : Tensor} :
    tensor.elements? ≠ none ↔ tensor.positions * tensor.channels < Size.limit := by
  rw [Option.ne_none_iff_exists']
  simp only [elements?_eq_some_iff]
  exact ⟨fun ⟨_, hcount, hlt⟩ => hcount ▸ hlt, fun hlt => ⟨_, rfl, hlt⟩⟩

/-- The number of elements is not found exactly if it is no size. -/
theorem elements?_eq_none_iff {tensor : Tensor} :
    tensor.elements? = none ↔ Size.limit ≤ tensor.positions * tensor.channels := by
  rw [← Nat.not_lt, ← elements?_ne_none_iff, not_ne_iff]

/-- The number of positions is computed exactly if it and the product before it are sizes. -/
theorem pixels_eq_ok_iff {tensor : Tensor} {n : Nat} :
    tensor.pixels = .ok n ↔
      tensor.dims.batch * tensor.dims.height < Size.limit ∧ tensor.positions = n ∧
        n < Size.limit := by
  unfold pixels
  cases hrows : Size.mul tensor.dims.batch tensor.dims.height with
  | error fault =>
      have hlimit := (Size.mul_eq_error_iff.1 hrows).1
      simp only [bind, Except.bind, reduceCtorEq, false_iff, not_and]
      omega
  | ok rows =>
      obtain ⟨rfl, hlt⟩ := Size.mul_eq_ok_iff.1 hrows
      simp only [bind, Except.bind, hlt, true_and]
      exact Size.mul_eq_ok_iff

/-- Counting positions only fails where the number of positions or the product before it is no
size. -/
theorem pixels_eq_error_iff {tensor : Tensor} {fault : Fault} :
    tensor.pixels = .error fault ↔
      fault = .product ∧
        (Size.limit ≤ tensor.dims.batch * tensor.dims.height ∨ Size.limit ≤ tensor.positions) := by
  unfold pixels
  cases hrows : Size.mul tensor.dims.batch tensor.dims.height with
  | error cause =>
      obtain ⟨hlimit, rfl⟩ := Size.mul_eq_error_iff.1 hrows
      simp only [bind, Except.bind, Except.error.injEq, hlimit, true_or, and_true, eq_comm]
  | ok rows =>
      obtain ⟨rfl, hlt⟩ := Size.mul_eq_ok_iff.1 hrows
      simp only [bind, Except.bind, Nat.not_le.2 hlt, false_or]
      exact Size.mul_eq_error_iff.trans and_comm

/-- Where the positions can be counted, the elements are counted exactly if their number is a
size. -/
theorem elements_of_pixels {tensor : Tensor} {pixels n : Nat} (hpixels : tensor.pixels = .ok pixels)
    (hcount : tensor.elements? = some n) : tensor.elements = .ok n := by
  obtain ⟨-, hpositions, -⟩ := pixels_eq_ok_iff.1 hpixels
  rw [elements, hpixels]
  exact Size.mul_eq_ok_iff.2 (hpositions ▸ elements?_eq_some_iff.1 hcount)

/-- Where the positions cannot be counted, the elements are not counted either. -/
theorem elements_of_pixels_error {tensor : Tensor} {fault : Fault}
    (h : tensor.pixels = .error fault) : tensor.elements = .error fault := by
  rw [elements, h]
  rfl

/-! ## Both counts of the elements -/

/-- Counting the elements is multiplying all dimensions from the left. -/
theorem elements_eq_foldlM {tensor : Tensor} (hbatch : tensor.dims.batch < Size.limit) :
    tensor.elements = tensor.dims.toList.foldlM Size.mul 1 := by
  have hfirst : Size.mul 1 tensor.dims.batch = .ok tensor.dims.batch :=
    Size.mul_eq_ok_iff.2 ⟨Nat.one_mul _, hbatch⟩
  simp only [elements, pixels, channels, Dims.toList, List.foldlM_cons, List.foldlM_nil, hfirst,
    bind_assoc, bind_pure]
  rfl

/-- The elements are counted exactly where all products from the left are sizes, and counting them
is a fault where one of them is not. -/
theorem elements_cases {tensor : Tensor} (hbatch : tensor.dims.batch < Size.limit) :
    (tensor.elements = .ok tensor.dims.toList.prod ∧
        ∀ front, front <+: tensor.dims.toList → front.prod < Size.limit) ∨
      (tensor.elements = .error .product ∧
        ∃ front, front <+: tensor.dims.toList ∧ Size.limit ≤ front.prod) := by
  rw [elements_eq_foldlM hbatch]
  exact Size.foldlM_mul_cases tensor.dims.toList

/-- Counting the elements fails exactly where a product from the left is no size. -/
theorem elements_eq_error_iff {tensor : Tensor} (hbatch : tensor.dims.batch < Size.limit)
    {fault : Fault} :
    tensor.elements = .error fault ↔
      fault = .product ∧ ∃ front, front <+: tensor.dims.toList ∧ Size.limit ≤ front.prod := by
  rcases elements_cases hbatch with ⟨hcount, hfronts⟩ | ⟨hfault, hfront⟩
  · simp only [hcount, reduceCtorEq, false_iff, not_and, not_exists, Nat.not_le]
    exact fun _ => hfronts
  · simp only [hfault, Except.error.injEq, hfront, and_true, eq_comm]

/-- The elements that are counted from the left are those that are counted exactly. -/
theorem elements?_of_elements {tensor : Tensor} {n : Nat}
    (hbatch : tensor.dims.batch < Size.limit) (h : tensor.elements = .ok n) :
    tensor.elements? = some n := by
  rcases elements_cases hbatch with ⟨hcount, hfronts⟩ | ⟨hfault, -⟩
  · cases hcount.symm.trans h
    exact elements?_eq_some_iff.2 ⟨tensor.prod_toList.symm, hfronts _ List.prefix_rfl⟩
  · cases hfault.symm.trans h

/-- Elements that cannot be counted from the left are counted exactly where a dimension of zero
follows the product that is no size; there are none of them. -/
theorem elements?_of_elements_error {tensor : Tensor} {n : Nat}
    (hbatch : tensor.dims.batch < Size.limit) (h : tensor.elements = .error .product) :
    tensor.elements? = some n ↔
      n = 0 ∧ ∃ front rest, tensor.dims.toList = front ++ rest ∧ Size.limit ≤ front.prod ∧
        0 ∈ rest := by
  obtain ⟨-, front, ⟨rest, hsplit⟩, hfront⟩ := (elements_eq_error_iff hbatch).1 h
  rw [elements?_eq_some_iff, ← prod_toList]
  constructor
  · rintro ⟨rfl, hlt⟩
    have hrest : rest.prod = 0 := by
      refine Nat.eq_zero_of_not_pos fun hpos => ?_
      have hlarger : front.prod ≤ front.prod * rest.prod := Nat.le_mul_of_pos_right _ hpos
      rw [← hsplit, List.prod_append] at hlt
      omega
    obtain ⟨_, hzero, rfl⟩ := List.prod_eq_zero_iff_exists_zero_nat.1 hrest
    refine ⟨?_, front, rest, hsplit.symm, hfront, hzero⟩
    rw [← hsplit, List.prod_append, hrest, Nat.mul_zero]
  · rintro ⟨rfl, front, rest, hsplit, -, hzero⟩
    have hrest : rest.prod = 0 := List.prod_eq_zero_iff_exists_zero_nat.2 ⟨0, hzero, rfl⟩
    exact ⟨by rw [hsplit, List.prod_append, hrest, Nat.mul_zero], by decide⟩

/-- Where no dimension is zero, the elements cannot be counted from the left exactly if they cannot
be counted at all. -/
theorem elements_eq_error_iff_elements? {tensor : Tensor}
    (hbatch : tensor.dims.batch < Size.limit) (hzero : 0 ∉ tensor.dims.toList) :
    tensor.elements = .error .product ↔ tensor.elements? = none := by
  rw [elements_eq_error_iff hbatch, elements?_eq_none_iff, ← prod_toList]
  constructor
  · rintro ⟨-, front, hfront, hlimit⟩
    exact Nat.le_trans hlimit (Size.prod_front_le hzero hfront)
  · intro hlimit
    exact ⟨rfl, _, List.prefix_rfl, hlimit⟩

/-- One count of the elements is exact wherever it is a size at all, and the other one fails exactly
where a product from the left is no size. Where both are found they are the same, and they differ
only where a dimension of zero follows a product that is no size. -/
theorem counts_exact {tensor : Tensor} (hdims : ∀ dim ∈ tensor.dims.toList, dim < Size.limit) :
    (∀ n, tensor.elements? = some n ↔ tensor.dims.toList.prod = n ∧ n < Size.limit) ∧
      (tensor.elements? = none ↔ Size.limit ≤ tensor.dims.toList.prod) ∧
      (0 ∈ tensor.dims.toList → tensor.elements? = some 0) ∧
      (∀ fault, tensor.elements = .error fault ↔
        fault = .product ∧ ∃ front, front <+: tensor.dims.toList ∧ Size.limit ≤ front.prod) ∧
      (∀ n, tensor.elements = .ok n → tensor.elements? = some n) ∧
      (tensor.elements = .error .product → ∀ n, tensor.elements? = some n ↔
        n = 0 ∧ ∃ front rest, tensor.dims.toList = front ++ rest ∧ Size.limit ≤ front.prod ∧
          0 ∈ rest) ∧
      (0 ∉ tensor.dims.toList →
        (tensor.elements = .error .product ↔ tensor.elements? = none)) := by
  have hbatch : tensor.dims.batch < Size.limit := hdims _ List.mem_cons_self
  simp only [prod_toList]
  exact ⟨fun n => elements?_eq_some_iff, elements?_eq_none_iff, fun hzero => if_pos hzero,
    fun fault => elements_eq_error_iff hbatch, fun n => elements?_of_elements hbatch,
    fun hfault n => elements?_of_elements_error hbatch hfault,
    elements_eq_error_iff_elements? hbatch⟩

/-- The two counts of a tensor whose rows are too many to be counted, and which has no elements. -/
theorem counts_exact_tall :
    let tensor := Tensor.interleaved .f32 ⟨2 ^ 64 - 1, 2, 0, 4⟩
    (∀ dim ∈ tensor.dims.toList, dim < Size.limit) ∧
      tensor.elements? = some 0 ∧ tensor.elements = .error .product := by
  intro tensor
  have hdims : ∀ dim ∈ tensor.dims.toList, dim < Size.limit := by decide
  obtain ⟨-, -, hzero, hfault, -⟩ := counts_exact hdims
  have hfront : [2 ^ 64 - 1, 2] <+: tensor.dims.toList := by decide
  exact ⟨hdims, hzero (by decide), (hfault .product).2 ⟨rfl, _, hfront, by decide⟩⟩

end Tensor

end ChannelConcat
