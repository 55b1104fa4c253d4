import Chit402.ExceptFlowProofs

/-! # Records of fixed width inside a buffer

    A record is a list of named fields with a width each; it lies in a buffer
    from a base position on, its offsets the running sum of the widths.
    `writeAll` overwrites the fields one after the other, each with what a
    fallible reader gives for it. -/

namespace FixedRecord

open ExceptFlow

/-- Field names and widths, in order. -/
abbrev Fields (ν : Type) := List (ν × ℕ)

/-- A field in its place: name, position and width. -/
structure Slot (ν : Type) where
  name : ν
  offset : ℕ
  size : ℕ
deriving DecidableEq

variable {ν β ε : Type}

def width (fields : Fields ν) : ℕ := (fields.map Prod.snd).sum

/-- The fields in their places, from position `offset` on. -/
def slots (offset : ℕ) : Fields ν → List (Slot ν)
  | [] => []
  | (name, size) :: rest => ⟨name, offset, size⟩ :: slots (offset + size) rest

/-- `buf.slice(offset, offset + size)` -/
def slice (buf : List β) (offset size : ℕ) : List β := (buf.drop offset).take size

/-- `target.set(bytes, offset)` -/
def setAt (target : List β) (offset : ℕ) (bytes : List β) : List β :=
  target.take offset ++ bytes ++ target.drop (offset + bytes.length)

/-- Write every field with what `read` gives for it, or stop at its first error. -/
def writeAll (read : ν → ℕ → Except ε (List β)) (target : List β) (offset : ℕ) : Fields ν → Except ε (List β)
  | [] => .ok target
  | (name, size) :: rest => do
    let bytes ← read name size
    writeAll read (setAt target offset bytes) (offset + size) rest

@[simp] theorem width_nil : width ([] : Fields ν) = 0 := rfl

@[simp] theorem width_cons (name : ν) (size : ℕ) (rest : Fields ν) :
    width ((name, size) :: rest) = size + width rest := rfl

variable {fields : Fields ν} {a b buf bytes target : List β} {s : Slot ν} {n offset size : ℕ}

theorem length_slice (h : offset + size ≤ buf.length) : (slice buf offset size).length = size := by
  rw [slice, List.length_take, List.length_drop]
  omega

/-! ## One write -/

theorem length_setAt (h : offset + bytes.length ≤ target.length) :
    (setAt target offset bytes).length = target.length := by
  rw [setAt, List.length_append, List.length_append, List.length_take, List.length_drop]
  omega

theorem slice_setAt (h : offset + bytes.length ≤ target.length) :
    slice (setAt target offset bytes) offset bytes.length = bytes := by
  have htake : (target.take offset).length = offset := by
    rw [List.length_take]
    omega
  rw [slice, setAt, List.append_assoc, List.drop_append_of_le_length (by omega), List.drop_of_length_le (by omega),
    List.nil_append, List.take_left']
  rfl

theorem take_setAt (hn : n ≤ offset) (h : offset ≤ target.length) :
    (setAt target offset bytes).take n = target.take n := by
  rw [setAt, List.append_assoc, List.take_append_of_le_length (by rw [List.length_take]; omega), List.take_take,
    Nat.min_eq_left hn]

theorem drop_setAt (hn : offset + bytes.length ≤ n) (h : offset ≤ target.length) :
    (setAt target offset bytes).drop n = target.drop n := by
  have htake : (target.take offset ++ bytes).length = offset + bytes.length := by
    rw [List.length_append, List.length_take]
    omega
  rw [setAt, List.drop_append, List.drop_of_length_le (by omega), List.nil_append, List.drop_drop]
  congr 1
  omega

theorem take_of_take {m : ℕ} (h : a.take n = b.take n) (hm : m ≤ n) : a.take m = b.take m := by
  have hboth := congrArg (List.take m) h
  rwa [List.take_take, List.take_take, Nat.min_eq_left hm] at hboth

theorem slice_of_take (h : a.take n = b.take n) (hn : offset + size ≤ n) :
    slice a offset size = slice b offset size := by
  have hslice : ∀ c : List β, slice (c.take n) offset size = slice c offset size := by
    intro c
    rw [slice, slice, List.drop_take, List.take_take, Nat.min_eq_left (by omega)]
  rw [← hslice a, h, hslice]

theorem take_add (buf : List β) (offset size : ℕ) :
    buf.take (offset + size) = buf.take offset ++ slice buf offset size := List.take_add

theorem slice_add (buf : List β) (offset m n : ℕ) :
    slice buf offset (m + n) = slice buf offset m ++ slice buf (offset + m) n := by
  rw [slice, slice, slice, List.take_add, List.drop_drop]

theorem slice_slice {o : ℕ} (h : o + n ≤ size) : slice (slice buf offset size) o n = slice buf (offset + o) n := by
  rw [slice, slice, slice, List.drop_take, List.take_take, List.drop_drop, Nat.min_eq_left (by omega)]

/-! ## All writes -/

variable {read : ν → ℕ → Except ε (List β)}

/-- **WHAT A WRITTEN BUFFER IS**: nothing changed outside the record, and each
    field in its place is what the reader gave for it. -/
theorem writeAll_ok (hread : ∀ f ∈ fields, ∀ bytes, read f.1 f.2 = .ok bytes → bytes.length = f.2) {out : List β}
    (hfit : offset + width fields ≤ target.length) (h : writeAll read target offset fields = .ok out) :
    out.length = target.length ∧ out.take offset = target.take offset
      ∧ out.drop (offset + width fields) = target.drop (offset + width fields)
      ∧ ∀ s ∈ slots offset fields, read s.name s.size = .ok (slice out s.offset s.size) := by
  induction fields generalizing target offset with
  | nil =>
    cases h
    exact ⟨rfl, rfl, rfl, fun s hs => nomatch hs⟩
  | cons field rest ih =>
    obtain ⟨name, size⟩ := field
    obtain ⟨hfield, htail⟩ := List.forall_mem_cons.mp hread
    rw [width_cons] at hfit ⊢
    obtain ⟨bytes, hbytes, hrest⟩ := bind_iff.mp h
    obtain rfl := hfield bytes hbytes
    obtain ⟨hlength, htake, hdrop, hslots⟩ := ih htail (by rw [length_setAt (by omega)]; omega) hrest
    rw [slots, List.forall_mem_cons, ← Nat.add_assoc]
    refine ⟨hlength.trans (length_setAt (by omega)), ?_, ?_, ?_, hslots⟩
    · rw [take_of_take htake (by omega), take_setAt (Nat.le_refl _) (by omega)]
    · rw [hdrop, drop_setAt (by omega) (by omega)]
    · rw [slice_of_take htake (Nat.le_refl _), slice_setAt (by omega)]
      exact hbytes

/-- **WRITING A LINE OVER**: when the reader gives each field what lies there in
    `line`, a buffer that agrees with `line` before the record agrees with it to its end. -/
theorem writeAll_of_slices (read : ν → ℕ → Except ε (List β)) {line : List β}
    (hfit : offset + width fields ≤ target.length) (hline : offset + width fields ≤ line.length)
    (hagree : target.take offset = line.take offset)
    (hslots : ∀ s ∈ slots offset fields, read s.name s.size = .ok (slice line s.offset s.size)) :
    ∃ out, writeAll read target offset fields = .ok out ∧ out.length = target.length
      ∧ out.take (offset + width fields) = line.take (offset + width fields) := by
  induction fields generalizing target offset with
  | nil => exact ⟨target, rfl, rfl, hagree⟩
  | cons field rest ih =>
    obtain ⟨name, size⟩ := field
    rw [slots, List.forall_mem_cons] at hslots
    rw [width_cons, ← Nat.add_assoc] at hfit hline ⊢
    have hsize : (slice line offset size).length = size := length_slice (by omega)
    have hlength : (setAt target offset (slice line offset size)).length = target.length := length_setAt (by omega)
    have hset : (setAt target offset (slice line offset size)).take (offset + size) = line.take (offset + size) := by
      have hwritten : slice (setAt target offset (slice line offset size)) offset (slice line offset size).length
          = slice line offset size := slice_setAt (by omega)
      rw [hsize] at hwritten
      rw [take_add, take_add, hwritten, take_setAt (Nat.le_refl _) (by omega), hagree]
    obtain ⟨out, hout, hsame, htake⟩ := ih (by omega) hline hset hslots.2
    exact ⟨out, bind_iff.mpr ⟨_, hslots.1, hout⟩, hsame.trans hlength, htake⟩

/-- **A BUFFER IS ITS FIELDS** and what lies outside of the record. -/
theorem eq_of_slots (fields : Fields ν) (htake : a.take offset = b.take offset)
    (hdrop : a.drop (offset + width fields) = b.drop (offset + width fields))
    (hslots : ∀ s ∈ slots offset fields, slice a s.offset s.size = slice b s.offset s.size) : a = b := by
  induction fields generalizing offset with
  | nil =>
    rw [width_nil, Nat.add_zero] at hdrop
    rw [← List.take_append_drop offset a, htake, hdrop, List.take_append_drop]
  | cons field rest ih =>
    obtain ⟨name, size⟩ := field
    rw [slots, List.forall_mem_cons] at hslots
    rw [width_cons, ← Nat.add_assoc] at hdrop
    refine ih ?_ hdrop hslots.2
    rw [take_add, take_add, htake, hslots.1]

theorem mem_of_slot (hs : s ∈ slots offset fields) : (s.name, s.size) ∈ fields := by
  induction fields generalizing offset with
  | nil => cases hs
  | cons field rest ih =>
    obtain ⟨name, size⟩ := field
    rcases List.mem_cons.mp hs with rfl | hs
    · exact List.mem_cons_self
    · exact List.mem_cons_of_mem _ (ih hs)

theorem slot_name_mem (hs : s ∈ slots offset fields) :
    s.name ∈ fields.map Prod.fst := List.mem_map.mpr ⟨_, mem_of_slot hs, rfl⟩

theorem exists_slot {f : ν × ℕ} (hf : f ∈ fields) : ∃ s ∈ slots offset fields, s.name = f.1 ∧ s.size = f.2 := by
  induction fields generalizing offset with
  | nil => cases hf
  | cons field rest ih =>
    obtain ⟨name, size⟩ := field
    rcases List.mem_cons.mp hf with rfl | hf
    · exact ⟨_, List.mem_cons_self, rfl, rfl⟩
    · obtain ⟨s, hs, hname⟩ := ih hf
      exact ⟨s, List.mem_cons_of_mem _ hs, hname⟩

theorem slot_fits (fields : Fields ν) (hs : s ∈ slots offset fields) :
    offset ≤ s.offset ∧ s.offset + s.size ≤ offset + width fields := by
  induction fields generalizing offset with
  | nil => cases hs
  | cons field rest ih =>
    obtain ⟨name, size⟩ := field
    rw [width_cons]
    rcases List.mem_cons.mp hs with rfl | hs
    · exact ⟨Nat.le_refl _, by show offset + size ≤ _; omega⟩
    · obtain ⟨hge, hle⟩ := ih hs
      exact ⟨by omega, by omega⟩

end FixedRecord
