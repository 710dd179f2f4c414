import Mathlib.Algebra.Order.BigOperators.Group.List
import Mathlib.Algebra.Order.Group.Nat
import ChannelConcat.Proofs.Rows
import ChannelConcat.Scalar

/-!
# Interleaving in stages

Sources may be interleaved group by group, each group into a buffer of its own, and then the buffers
of the groups with each other. The result is that of interleaving all sources at once, and it does
not matter in which of the two stages the elements are clamped. Main definitions:
`SourceGroup.joined`, `SourceGroup.staged`. Main statement: `SourceGroup.filled_staged`.
-/

namespace ChannelConcat

/-! ## Clamps in two stages -/

namespace Scalar

/-- Zero is negative for no element type. -/
theorem negative_zero (scalar : Scalar) : scalar.negative 0 = false := by
  cases scalar <;> rfl

/-- A second clamp changes nothing. -/
theorem clamp_clamp (scalar : Scalar) (value : scalar.Value) :
    scalar.clamp (scalar.clamp value) = scalar.clamp value := by
  by_cases hvalue : scalar.negative value = true
  · have hzero : scalar.clamp value = 0 := if_pos hvalue
    rw [hzero, clamp, negative_zero, if_neg Bool.false_ne_true]
  · have hsame : scalar.clamp value = value := if_neg hvalue
    rw [hsame, hsame]

/-- Elements that are clamped in one of two stages or in both are clamped once. -/
theorem clamp_comp (scalar : Scalar) (inner outer : Bool) :
    ((if outer then scalar.clamp else id) ∘ if inner then scalar.clamp else id) =
      if inner || outer then scalar.clamp else id := by
  cases inner with
  | false => cases outer <;> rfl
  | true =>
      cases outer with
      | false => rfl
      | true => exact funext scalar.clamp_clamp

end Scalar

/-! ## Groups of sources -/

variable {α : Type}

/-- Sources that are interleaved with each other, and the buffer that their rows are put into. -/
structure SourceGroup (α : Type) where
  sources : List (Array α)
  /-- The width of the rows of each source. -/
  channels : List Nat
  target : Array α

namespace SourceGroup

/-- The width of the rows of all sources side by side. -/
def width (group : SourceGroup α) : Nat :=
  group.channels.sum

/-- The sources, each with the width of its rows. -/
def rowSources (group : SourceGroup α) : List (Array α × Nat) :=
  group.sources.zip group.channels

/-- The target with the rows of the sources side by side, each element changed by `f`. -/
def filled (f : α → α) (group : SourceGroup α) : Filled α :=
  interleave f group.sources group.channels group.target

/-- The sources of all groups in one group. -/
def joined (groups : List (SourceGroup α)) (target : Array α) : SourceGroup α :=
  ⟨groups.flatMap sources, groups.flatMap channels, target⟩

/-- The targets of all groups, after each of them was filled, as the sources of one group. -/
def staged (f : α → α) (groups : List (SourceGroup α)) (target : Array α) : SourceGroup α :=
  ⟨groups.map fun group => (group.filled f).buffer, groups.map width, target⟩

/-- Each source has a width, all buffers consist of the given number of rows, and widths and lengths
are sizes. -/
structure Exact (rows : Nat) (group : SourceGroup α) : Prop where
  length_eq : group.sources.length = group.channels.length
  sources : ∀ source ∈ group.rowSources, source.1.size = rows * source.2
  target : group.target.size = rows * group.width
  width_lt : group.width < Size.limit
  target_lt : group.target.size < Size.limit

/-- The rows of the sources side by side, one such row behind the other. -/
def image (f : α → α) (rows : Nat) (group : SourceGroup α) : List α :=
  (List.range rows).flatMap (interleaved f group.rowSources)

variable {f : α → α} {group : SourceGroup α} {groups : List (SourceGroup α)} {target : Array α}
  {rows index : Nat}

/-- Each source has as many rows as the target. -/
theorem Exact.hasRow (h : group.Exact rows) (hindex : index < rows) :
    ∀ source ∈ group.rowSources, Buffer.HasRow source.2 index source.1 := by
  intro source hsource
  have hstop : (index + 1) * source.2 ≤ rows * source.2 := Nat.mul_le_mul_right _ hindex
  have hwidth : source.2 ≤ group.width := List.le_sum_of_mem (List.of_mem_zip hsource).2
  refine ⟨h.sources source hsource ▸ hstop, ?_⟩
  calc (index + 1) * source.2
    _ ≤ rows * source.2 := hstop
    _ ≤ rows * group.width := Nat.mul_le_mul_left _ hwidth
    _ = group.target.size := h.target.symm
    _ < Size.limit := h.target_lt

/-- A row of the sources side by side has the width of the group. -/
theorem Exact.length_interleaved (h : group.Exact rows) (hindex : index < rows) :
    (interleaved f group.rowSources index).length = group.width := by
  rw [ChannelConcat.length_interleaved (h.hasRow hindex), rowSources,
    List.map_snd_zip (Nat.le_of_eq h.length_eq.symm), width]

/-- The rows of the sources fill the target. -/
theorem Exact.length_image (h : group.Exact rows) :
    (group.image f rows).length = rows * group.width := by
  rw [image, length_flatMap_rows fun k hk => h.length_interleaved (List.mem_range.1 hk),
    List.length_range]

/-- The rows of a filled target are the rows of the sources side by side. -/
theorem Exact.rowItems_image (h : group.Exact rows) (hindex : index < rows) :
    Buffer.rowItems (group.image f rows).toArray group.width index =
      interleaved f group.rowSources index :=
  Buffer.rowItems_flatMap_range (fun _ hk => h.length_interleaved hk) hindex

/-- The target of a group is filled with the rows of its sources, without a fault. -/
theorem Exact.filled_eq (h : group.Exact rows) (f : α → α) :
    group.filled f = ⟨(group.image f rows).toArray, none⟩ :=
  interleave_eq h.length_eq h.width_lt h.target fun _ hk => h.hasRow hk

/-! ## All groups -/

/-- All groups together are as wide as the sum of their widths says. -/
theorem width_joined (groups : List (SourceGroup α)) (target : Array α) :
    (joined groups target).width = (groups.map width).sum := by
  show (groups.flatMap channels).sum = (groups.map width).sum
  induction groups with
  | nil => rfl
  | cons group groups ih =>
      rw [List.flatMap_cons, List.sum_append, ih, List.map_cons, List.sum_cons, width]

/-- The sources of all groups, each with its width. -/
theorem rowSources_joined (hgroups : ∀ group ∈ groups, group.Exact rows) :
    (joined groups target).rowSources = groups.flatMap rowSources := by
  show (groups.flatMap sources).zip (groups.flatMap channels) = groups.flatMap rowSources
  induction groups with
  | nil => rfl
  | cons group groups ih =>
      have hlength := (hgroups group List.mem_cons_self).length_eq
      rw [List.flatMap_cons, List.flatMap_cons, List.zip_append hlength, List.flatMap_cons,
        ih fun later hlater => hgroups later (.tail _ hlater), rowSources]

/-- The filled targets of all groups, each with the width of its group. -/
theorem rowSources_staged (hgroups : ∀ group ∈ groups, group.Exact rows) :
    (staged f groups target).rowSources =
      groups.map fun group => ((group.image f rows).toArray, group.width) := by
  show (groups.map fun group => (group.filled f).buffer).zip (groups.map width) = _
  rw [List.zip_map']
  refine List.map_congr_left ?_
  intro group hgroup
  rw [(hgroups group hgroup).filled_eq f]

/-- The sources of exact groups make an exact group. -/
theorem Exact.joined (hgroups : ∀ group ∈ groups, group.Exact rows)
    (hwidth : (groups.map width).sum < Size.limit)
    (htarget : target.size = rows * (groups.map width).sum) (hlimit : target.size < Size.limit) :
    (joined groups target).Exact rows := by
  rw [← width_joined groups target] at hwidth htarget
  refine ⟨?_, ?_, htarget, hwidth, hlimit⟩
  · show (groups.flatMap SourceGroup.sources).length = (groups.flatMap channels).length
    rw [List.length_flatMap, List.length_flatMap]
    congr 1
    exact List.map_congr_left fun group hgroup => (hgroups group hgroup).length_eq
  · intro source hsource
    rw [rowSources_joined hgroups] at hsource
    obtain ⟨group, hgroup, hmem⟩ := List.mem_flatMap.1 hsource
    exact (hgroups group hgroup).sources source hmem

/-- The filled targets of exact groups make an exact group. -/
theorem Exact.staged (hgroups : ∀ group ∈ groups, group.Exact rows)
    (hwidth : (groups.map width).sum < Size.limit)
    (htarget : target.size = rows * (groups.map width).sum) (hlimit : target.size < Size.limit) :
    (staged f groups target).Exact rows := by
  refine ⟨?_, ?_, htarget, hwidth, hlimit⟩
  · show (groups.map _).length = (groups.map _).length
    rw [List.length_map, List.length_map]
  · intro source hsource
    rw [rowSources_staged hgroups] at hsource
    obtain ⟨group, hgroup, rfl⟩ := List.mem_map.1 hsource
    show (group.image f rows).toArray.size = rows * group.width
    rw [List.size_toArray, (hgroups group hgroup).length_image]

/-- A row of the filled targets side by side is a row of all sources side by side, each element
changed in the first stage and then in the second. -/
theorem interleaved_staged (hgroups : ∀ group ∈ groups, group.Exact rows) (hindex : index < rows)
    (f g : α → α) :
    interleaved g (staged f groups target).rowSources index =
      interleaved (g ∘ f) (joined groups target).rowSources index := by
  have hgroup (group : SourceGroup α) (hmem : group ∈ groups) :
      (Buffer.rowItems (group.image f rows).toArray group.width index).map g =
        interleaved (g ∘ f) group.rowSources index := by
    rw [(hgroups group hmem).rowItems_image hindex, interleaved, interleaved, List.map_flatMap]
    simp only [List.map_map]
  rw [rowSources_staged hgroups, rowSources_joined hgroups, interleaved, interleaved,
    List.flatMap_map, List.flatMap_assoc]
  exact List.flatMap_congr hgroup

/-- Groups that are interleaved one by one and then with each other give what all their sources give
at once, and nowhere is there a fault. The elements come out clamped if one of the stages clamps
them, whichever it is. -/
theorem filled_staged {scalar : Scalar} {pixels : Nat} {groups : List (SourceGroup scalar.Value)}
    {target other : Array scalar.Value} (hgroups : ∀ group ∈ groups, group.Exact pixels)
    (hwidth : (groups.map width).sum < Size.limit)
    (htarget : target.size = pixels * (groups.map width).sum) (hother : other.size = target.size)
    (hlimit : target.size < Size.limit) (inner outer : Bool) :
    (∀ group ∈ groups, (group.filled (if inner then scalar.clamp else id)).fault = none) ∧
      (staged (if inner then scalar.clamp else id) groups target).filled
          (if outer then scalar.clamp else id) =
        (joined groups other).filled (if inner || outer then scalar.clamp else id) ∧
      ((joined groups other).filled (if inner || outer then scalar.clamp else id)).fault =
        none := by
  rw [← scalar.clamp_comp inner outer]
  generalize (if inner then scalar.clamp else id) = f
  generalize (if outer then scalar.clamp else id) = g
  have hstaged : (staged f groups target).Exact pixels := .staged hgroups hwidth htarget hlimit
  have hjoined : (joined groups other).Exact pixels :=
    .joined hgroups hwidth (hother.trans htarget) (hother ▸ hlimit)
  rw [hstaged.filled_eq g, hjoined.filled_eq (g ∘ f)]
  refine ⟨fun group hgroup => by rw [(hgroups group hgroup).filled_eq f], ?_, rfl⟩
  congr 2
  refine List.flatMap_congr ?_
  intro index hindex
  exact interleaved_staged hgroups (List.mem_range.1 hindex) f g

/-- Single-precision numbers at two positions, clamped in the first stage: a group of two sources, a
group without sources, one whose source has no channels, and one of a single source. A NaN and a
negative zero come out as they were. -/
theorem filled_staged_two_positions :
    let clamp := Scalar.f32.clamp
    let wide : SourceGroup Scalar.f32.Value :=
      ⟨[#[0xBF800000, 0x3F800000], #[0x80000000, 0x7FC00000, 0xFF800000, 0x40000000]], [1, 2],
        #[7, 7, 7, 7, 7, 7]⟩
    let single : SourceGroup Scalar.f32.Value := ⟨[#[0xC0000000, 0xFFC00000]], [1], #[8, 8]⟩
    let groups := [wide, ⟨[], [], #[]⟩, ⟨[#[]], [0], #[]⟩, single]
    let target : Array Scalar.f32.Value := #[1, 1, 1, 1, 1, 1, 1, 1]
    let other : Array Scalar.f32.Value := #[2, 2, 2, 2, 2, 2, 2, 2]
    (∀ group ∈ groups, group.Exact 2) ∧ (groups.map width).sum < Size.limit ∧
      target.size = 2 * (groups.map width).sum ∧ other.size = target.size ∧
      target.size < Size.limit ∧
      (∀ group ∈ groups, (group.filled clamp).fault = none) ∧
      (staged clamp groups target).filled id = (joined groups other).filled clamp ∧
      (joined groups other).filled clamp =
        ⟨#[0, 0x80000000, 0x7FC00000, 0, 0x3F800000, 0, 0x40000000, 0xFFC00000], none⟩ := by
  intro clamp wide single groups target other
  have hgroups : ∀ group ∈ groups, group.Exact 2 := by
    intro group hgroup
    simp only [groups, List.mem_cons, List.not_mem_nil, or_false] at hgroup
    rcases hgroup with rfl | rfl | rfl | rfl <;>
      exact ⟨rfl, by decide, rfl, by decide, by decide⟩
  obtain ⟨hfault, hstaged, -⟩ := @filled_staged .f32 2 groups target other hgroups (by decide) rfl
    rfl (by decide) true false
  exact ⟨hgroups, by decide, rfl, rfl, by decide, hfault, hstaged, by cbv⟩

end SourceGroup

end ChannelConcat
