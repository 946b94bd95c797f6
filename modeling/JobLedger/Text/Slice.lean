/-!
# Slices

The part of a text between two offsets, which count the bytes of its UTF-8 form. Main statement: a text is cut
behind a number of bytes exactly where its front takes that many (`splitAtByte?_eq_some_iff`), so there is no
cut inside of a character or behind the end.
-/
namespace JobLedger.Text

def byteSize (cs : List Char) : Nat := cs.foldr (fun c n => c.utf8Size + n) 0

/-- A text cut in two behind a number of bytes. -/
def splitAtByte? : Nat → List Char → Option (List Char × List Char)
  | 0, cs => some ([], cs)
  | _ + 1, [] => none
  | n + 1, c :: cs =>
    if c.utf8Size ≤ n + 1 then
      (splitAtByte? (n + 1 - c.utf8Size) cs).map fun (front, back) => (c :: front, back)
    else none

def slice? (start stop : Nat) (cs : List Char) : Option String :=
  (splitAtByte? start cs).bind fun (_, back) =>
    (splitAtByte? (stop - start) back).map fun (middle, _) => String.ofList middle

def sliceFrom? (start : Nat) (cs : List Char) : Option String :=
  (splitAtByte? start cs).map fun (_, back) => String.ofList back

/-- Characters with their offsets, the first of which is given. -/
def withOffsets (start : Nat) : List Char → List (Nat × Char)
  | [] => []
  | c :: cs => (start, c) :: withOffsets (start + c.utf8Size) cs

@[simp] theorem byteSize_nil : byteSize [] = 0 := rfl

@[simp] theorem byteSize_cons (c : Char) (cs : List Char) :
    byteSize (c :: cs) = c.utf8Size + byteSize cs := rfl

@[simp] theorem byteSize_append (cs ds : List Char) : byteSize (cs ++ ds) = byteSize cs + byteSize ds := by
  induction cs with
  | nil => simp
  | cons c cs ih => rw [List.cons_append, byteSize_cons, byteSize_cons, ih, Nat.add_assoc]

private theorem splitAtByte?_append (front back : List Char) :
    splitAtByte? (byteSize front) (front ++ back) = some (front, back) := by
  induction front with
  | nil => simp [splitAtByte?]
  | cons c cs ih =>
    have := c.utf8Size_pos
    obtain ⟨n, hn⟩ : ∃ n, byteSize (c :: cs) = n + 1 := ⟨byteSize (c :: cs) - 1, by simp; omega⟩
    have hrest : n + 1 - c.utf8Size = byteSize cs := by simp at hn; omega
    have hfits : c.utf8Size ≤ n + 1 := by simp at hn; omega
    rw [hn, List.cons_append, splitAtByte?, if_pos hfits, hrest, ih]; rfl

private theorem eq_append_of_splitAtByte? {n : Nat} {cs front back : List Char}
    (h : splitAtByte? n cs = some (front, back)) : cs = front ++ back ∧ byteSize front = n := by
  induction cs generalizing n front with
  | nil => cases n <;> simp_all [splitAtByte?]
  | cons c cs ih =>
    cases n with
    | zero =>
      obtain ⟨rfl, rfl⟩ := by simpa [splitAtByte?] using h
      exact ⟨rfl, rfl⟩
    | succ n =>
      by_cases hfits : c.utf8Size ≤ n + 1
      · rw [splitAtByte?, if_pos hfits, Option.map_eq_some_iff] at h
        obtain ⟨⟨front, back⟩, hcut, heq⟩ := h
        obtain ⟨rfl, rfl⟩ := Prod.mk.inj heq
        obtain ⟨rfl, hsize⟩ := ih hcut
        exact ⟨rfl, by simp; omega⟩
      · simp [splitAtByte?, hfits] at h

theorem splitAtByte?_eq_some_iff {n : Nat} {cs front back : List Char} :
    splitAtByte? n cs = some (front, back) ↔ cs = front ++ back ∧ byteSize front = n :=
  ⟨eq_append_of_splitAtByte?, fun ⟨h, hn⟩ => h ▸ hn ▸ splitAtByte?_append front back⟩

@[simp] theorem map_snd_withOffsets (start : Nat) (cs : List Char) :
    (withOffsets start cs).map Prod.snd = cs := by
  induction cs generalizing start with
  | nil => rfl
  | cons c cs ih => simp [withOffsets, ih]

end JobLedger.Text
