import ChannelConcat.Buffer

/-!
# Interleaving rows element by element

The concatenation along channels without generated code: each row of the target is the matching rows
of all sources side by side. Main definition: `interleave`.
-/

namespace ChannelConcat

/-- Fill the row of the target at an offset from row `index` of each source in turn; each source
comes with the width of its rows. -/
def interleaveRow {α : Type} (f : α → α) (index : Nat) :
    List (Array α × Nat) → (offset : Nat) → Array α → Filled α
  | [], _, target => ⟨target, none⟩
  | (source, width) :: sources, offset, target =>
      match Buffer.row source width index with
      | .error fault => ⟨target, some fault⟩
      | .ok items =>
          interleaveRow f index sources (offset + width)
            (Buffer.overwrite target offset (items.map f))

/-- Fill all rows of the target, the first of them with row `first` of the sources. -/
def interleaveFrom {α : Type} (f : α → α) (sources : List (Array α)) (channels : List Nat)
    (first : Nat) (target : Array α) : Filled α :=
  match Size.sum channels with
  | .error fault => ⟨target, some fault⟩
  | .ok width =>
      Buffer.fillRows (fun index offset => interleaveRow f index (sources.zip channels) offset)
        width first target

/-- Fill every whole row of the target with the matching rows of the sources side by side, each
element changed by `f`. What follows the last whole row stays as it is, as does everything if there
are no channels. -/
def interleave {α : Type} (f : α → α) (sources : List (Array α)) (channels : List Nat)
    (target : Array α) : Filled α :=
  if sources.length = channels.length then interleaveFrom f sources channels 0 target
  else ⟨target, some (.sourceCount sources.length channels.length)⟩

end ChannelConcat
