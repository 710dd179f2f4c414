import ChannelConcat.Proofs.X86.Fetch
import Mathlib.Data.List.Pairwise

/-!
# Prefix-free machine code

No form of instruction opens with the opening of another form. The bytes of a sequence of
instructions are therefore the bytes of no other sequence, and bytes that end inside an instruction
are read as no instruction. Main statements: `encode_injective`, `decode?_eq_none_of_cut`.
-/

namespace ChannelConcat.X86

/-- Code behind an opening begins with the opening. -/
theorem eq_append_of_afterOpening? {opening code rest : List Byte}
    (h : afterOpening? opening code = some rest) : code = opening ++ rest := by
  simp only [afterOpening?, List.isPrefixOf_iff_prefix] at h
  split at h
  · rename_i hprefix
    obtain ⟨behind, rfl⟩ := hprefix
    rw [← Option.some.inj h, List.drop_left]
  · cases h

namespace Form

/-- The bytes that all instructions of a form begin with. -/
def opening : Form → List Byte
  | fixed instr => instr.encode
  | byte opening _ | dword opening _ => opening

/-- The number of bytes behind the opening. -/
def operandBytes : Form → Nat
  | fixed _ => 0
  | byte _ _ => 1
  | dword _ _ => 4

/-- The bytes that an instruction of a form is read from are the opening of the form and the
operand. -/
theorem of_read? {form : Form} {code : List Byte} {instr : Instr} {size : Nat}
    (h : form.read? code = some (instr, size)) :
    form.opening <+: code ∧ size = form.opening.length + form.operandBytes ∧
      size ≤ code.length := by
  cases form with
  | fixed found =>
      simp only [read?, Option.map_eq_some_iff] at h
      obtain ⟨rest, hrest, hread⟩ := h
      cases hread
      obtain rfl := eq_append_of_afterOpening? hrest
      exact ⟨List.prefix_append .., rfl, by simp⟩
  | byte opening build =>
      simp only [read?] at h
      split at h
      · rename_i operand rest hrest
        cases h
        obtain rfl := eq_append_of_afterOpening? hrest
        exact ⟨List.prefix_append .., rfl, by simp⟩
      · cases h
  | dword opening build =>
      simp only [read?] at h
      split at h
      · rename_i b0 b1 b2 b3 rest hrest
        cases h
        obtain rfl := eq_append_of_afterOpening? hrest
        exact ⟨List.prefix_append .., rfl, by simp⟩
      · cases h

/-- Neither of two forms opens with the opening of the other. -/
def Apart (first second : Form) : Prop :=
  ¬ first.opening <+: second.opening ∧ ¬ second.opening <+: first.opening

/-- Whether forms are apart is decidable by comparing their openings. -/
instance (first second : Form) : Decidable (first.Apart second) :=
  inferInstanceAs (Decidable (_ ∧ _))

/-- Being apart does not depend on the order of the forms. -/
instance : Std.Symm Apart :=
  ⟨fun _ _ h => h.symm⟩

end Form

/-- No form opens with the opening of another one. -/
theorem pairwise_apart_forms : forms.Pairwise Form.Apart := by
  decide +kernel

/-- Two forms whose openings begin the same bytes are the same. -/
theorem form_eq_of_prefix {first second : Form} (hfirst : first ∈ forms) (hsecond : second ∈ forms)
    {code : List Byte} (h : first.opening <+: code) (hother : second.opening <+: code) :
    first = second := by
  by_contra hne
  obtain ⟨hforth, hback⟩ := pairwise_apart_forms.forall hfirst hsecond hne
  exact (List.prefix_or_prefix_of_prefix h hother).elim hforth hback

/-- Reading an instruction takes one of the forms. -/
theorem exists_form_of_decode? {code : List Byte} {read : Instr × Nat}
    (h : decode? code = some read) : ∃ form ∈ forms, form.read? code = some read :=
  List.exists_of_findSome?_eq_some h

/-- Bytes that end inside an instruction are read as no instruction. -/
theorem decode?_eq_none_of_cut {cut : List Byte} {instr : Instr} (h : cut <+: instr.encode)
    (hne : cut ≠ instr.encode) : decode? cut = none := by
  -- An instruction that is read from the bytes has the form of the one they are cut from, and so
  -- takes as many bytes as that.
  rw [Option.eq_none_iff_forall_ne_some]
  rintro ⟨other, size⟩ hcut
  obtain ⟨form, hform, hread⟩ := exists_form_of_decode? hcut
  obtain ⟨hopening, hsize, hle⟩ := Form.of_read? hread
  have hwhole : decode? instr.encode = some (instr, instr.encode.length) := by
    simpa using decode?_encode instr []
  obtain ⟨whole, hmem, hreadWhole⟩ := exists_form_of_decode? hwhole
  obtain ⟨hopeningWhole, hlength, -⟩ := Form.of_read? hreadWhole
  obtain rfl := form_eq_of_prefix hform hmem (hopening.trans h) hopeningWhole
  exact hne (h.eq_of_length_le (by omega))

/-- Sequences of instructions with the same bytes are the same. -/
theorem encode_injective {first second : List Instr} (h : encode first = encode second) :
    first = second := by
  induction first generalizing second with
  | nil =>
      cases second with
      | nil => rfl
      | cons instr second =>
          rw [encode_cons] at h
          exact absurd (List.append_eq_nil_iff.1 h.symm).1 instr.encode_ne_nil
  | cons instr first ih =>
      cases second with
      | nil =>
          rw [encode_cons] at h
          exact absurd (List.append_eq_nil_iff.1 h).1 instr.encode_ne_nil
      | cons other second =>
          rw [encode_cons, encode_cons] at h
          have hread := decode?_encode instr (encode first)
          rw [h, decode?_encode] at hread
          cases hread
          rw [ih (List.append_cancel_left h)]

end ChannelConcat.X86
