import Snark.Proofs.Bytes
import Snark.Proofs.Container.Reading

/-!
# Values and their bytes

A relation between bytes and values may let several byte strings stand for one value. `Encodes` says
that one of them is chosen: it is the only one all of whose blocks are canonical. This is kept by
lists of values, and by records whose fields stand one after another.
-/

namespace Snark

/-- Of the byte strings of the given width that stand for a valid value, `bytes` is the one whose
blocks are canonical. -/
structure Encodes {α : Type} (stands : Bytes → α → Prop) (bytes : α → Bytes) (valid : α → Prop)
    (width block : Nat) (canonical : Bytes → Prop) : Prop where
  block_pos : 0 < block
  width_eq : ∃ k, width = block * k
  length_eq {bs : Bytes} {x : α} (h : stands bs x) : bs.length = width
  valid_of {bs : Bytes} {x : α} (h : stands bs x) : valid x
  stands_bytes {x : α} (h : valid x) : stands (bytes x) x
  canonical_bytes {x : α} (h : valid x) : Bytes.EachBlock block canonical (bytes x)
  bytes_eq {bs : Bytes} {x : α} (h : stands bs x) (each : Bytes.EachBlock block canonical bs) :
    bytes x = bs

namespace Encodes

variable {α β : Type} {width block : Nat} {canonical : Bytes → Prop}

section One

variable {stands : Bytes → α → Prop} {bytes : α → Bytes} {valid : α → Prop}

theorem length_bytes (h : Encodes stands bytes valid width block canonical) {x : α}
    (hx : valid x) : (bytes x).length = width :=
  h.length_eq (h.stands_bytes hx)

/-- Bytes that stand for a value are its own exactly if their blocks are canonical. -/
theorem bytes_eq_iff (h : Encodes stands bytes valid width block canonical) {bs : Bytes} {x : α}
    (hx : stands bs x) : bytes x = bs ↔ Bytes.EachBlock block canonical bs := by
  constructor
  · rintro rfl
    exact h.canonical_bytes (h.valid_of hx)
  · exact h.bytes_eq hx

/-- The same relation, bytes and values, written in another way. -/
theorem congr (h : Encodes stands bytes valid width block canonical)
    {stands' : Bytes → α → Prop} {bytes' : α → Bytes} {valid' : α → Prop}
    (same_stands : ∀ bs x, stands bs x ↔ stands' bs x) (same_bytes : ∀ x, bytes x = bytes' x)
    (same_valid : ∀ x, valid x ↔ valid' x) :
    Encodes stands' bytes' valid' width block canonical := by
  obtain rfl : stands = stands' := funext fun bs => funext fun x => propext (same_stands bs x)
  obtain rfl : bytes = bytes' := funext same_bytes
  obtain rfl : valid = valid' := funext fun x => propext (same_valid x)
  exact h

/-- A value known by another one. -/
theorem comap (h : Encodes stands bytes valid width block canonical) (f : β → α) :
    Encodes (fun bs y => stands bs (f y)) (fun y => bytes (f y)) (fun y => valid (f y)) width block
      canonical where
  block_pos := h.block_pos
  width_eq := h.width_eq
  length_eq hy := h.length_eq hy
  valid_of hy := h.valid_of hy
  stands_bytes hy := h.stands_bytes hy
  canonical_bytes hy := h.canonical_bytes hy
  bytes_eq hy each := h.bytes_eq hy each

/-- The values of a list one after another. -/
theorem many (h : Encodes stands bytes valid width block canonical) (n : Nat) :
    Encodes (Reading.StandMany stands n) (fun xs => xs.flatMap bytes)
      (fun xs => xs.length = n ∧ ∀ x ∈ xs, valid x) (n * width) block canonical where
  block_pos := h.block_pos
  width_eq := by
    obtain ⟨k, hk⟩ := h.width_eq
    exact ⟨n * k, by rw [hk, Nat.mul_left_comm]⟩
  length_eq := by
    rintro _ xs ⟨blocks, rfl, each, rfl⟩
    induction each with
    | nil => simp
    | cons first _ ih =>
      rw [List.flatten_cons, List.length_append, h.length_eq first, ih, List.length_cons,
        Nat.succ_mul, Nat.add_comm]
  valid_of := by
    rintro _ xs ⟨blocks, rfl, each, rfl⟩
    refine ⟨rfl, ?_⟩
    induction each with
    | nil => simp
    | cons first _ ih => exact List.forall_mem_cons.2 ⟨h.valid_of first, ih⟩
  stands_bytes := by
    rintro xs ⟨rfl, each⟩
    refine ⟨xs.map bytes, List.flatMap_def, ?_, rfl⟩
    rw [List.forall₂_map_left_iff, List.forall₂_same]
    intro x hx
    exact h.stands_bytes (each x hx)
  canonical_bytes := by
    rintro xs ⟨-, each⟩
    obtain ⟨k, hk⟩ := h.width_eq
    rw [List.flatMap_def, Bytes.eachBlock_flatten h.block_pos (k := k)]
    · intro bs hbs
      obtain ⟨x, hx, rfl⟩ := List.mem_map.1 hbs
      exact h.canonical_bytes (each x hx)
    · intro bs hbs
      obtain ⟨x, hx, rfl⟩ := List.mem_map.1 hbs
      rw [h.length_bytes (each x hx), hk]
  bytes_eq := by
    rintro _ xs ⟨blocks, rfl, each, rfl⟩ good
    obtain ⟨k, hk⟩ := h.width_eq
    induction each with
    | nil => rfl
    | @cons bs x blocks xs first _ ih =>
      obtain ⟨good₁, good₂⟩ := (Bytes.eachBlock_append ((h.length_eq first).trans hk)).1 good
      rw [List.flatMap_cons, List.flatten_cons, h.bytes_eq first good₁, ih good₂]

end One

/-- Two fields one after the other. -/
theorem append {stands₁ stands₂ : Bytes → α → Prop} {bytes₁ bytes₂ : α → Bytes}
    {valid₁ valid₂ : α → Prop} {width₁ width₂ : Nat}
    (h₁ : Encodes stands₁ bytes₁ valid₁ width₁ block canonical)
    (h₂ : Encodes stands₂ bytes₂ valid₂ width₂ block canonical) :
    Encodes (fun bs x => ∃ bs₁ bs₂, bs = bs₁ ++ bs₂ ∧ stands₁ bs₁ x ∧ stands₂ bs₂ x)
      (fun x => bytes₁ x ++ bytes₂ x) (fun x => valid₁ x ∧ valid₂ x) (width₁ + width₂) block
      canonical where
  block_pos := h₁.block_pos
  width_eq := by
    obtain ⟨k₁, hk₁⟩ := h₁.width_eq
    obtain ⟨k₂, hk₂⟩ := h₂.width_eq
    exact ⟨k₁ + k₂, by rw [hk₁, hk₂, Nat.mul_add]⟩
  length_eq := by
    rintro _ x ⟨bs₁, bs₂, rfl, hx₁, hx₂⟩
    rw [List.length_append, h₁.length_eq hx₁, h₂.length_eq hx₂]
  valid_of := by
    rintro _ x ⟨bs₁, bs₂, rfl, hx₁, hx₂⟩
    exact ⟨h₁.valid_of hx₁, h₂.valid_of hx₂⟩
  stands_bytes := by
    rintro x ⟨hx₁, hx₂⟩
    exact ⟨bytes₁ x, bytes₂ x, rfl, h₁.stands_bytes hx₁, h₂.stands_bytes hx₂⟩
  canonical_bytes := by
    rintro x ⟨hx₁, hx₂⟩
    obtain ⟨k, hk⟩ := h₁.width_eq
    rw [Bytes.eachBlock_append ((h₁.length_bytes hx₁).trans hk)]
    exact ⟨h₁.canonical_bytes hx₁, h₂.canonical_bytes hx₂⟩
  bytes_eq := by
    rintro _ x ⟨bs₁, bs₂, rfl, hx₁, hx₂⟩ each
    obtain ⟨k, hk⟩ := h₁.width_eq
    obtain ⟨each₁, each₂⟩ := (Bytes.eachBlock_append ((h₁.length_eq hx₁).trans hk)).1 each
    rw [h₁.bytes_eq hx₁ each₁, h₂.bytes_eq hx₂ each₂]

end Encodes

end Snark
