import JobLedger.Job.Query

/-!
# The order of listings

Listings run through records by time of creation and identifier, which is a total order in which only records
of one job are alike. So what a query selects does not depend on the order in which the records are given.
-/
namespace JobLedger.ListQuery

theorem listedBefore_iff {a b : JobRecord} : listedBefore a b = true ↔
    b.createdAt.second < a.createdAt.second ∨ b.createdAt.second = a.createdAt.second ∧
      (b.createdAt.nano < a.createdAt.nano ∨ b.createdAt.nano = a.createdAt.nano ∧
        b.id.bits.toNat ≤ a.id.bits.toNat) := by
  simp only [listedBefore, Instant.order, JobId.order, Ordering.then_assoc, Ordering.isLE_then_iff_or,
    Int.compare_eq_lt, Int.compare_eq_eq, Nat.compare_eq_lt, Nat.compare_eq_eq, Nat.isLE_compare]

theorem listedBefore_trans {a b c : JobRecord} (hab : listedBefore a b = true) (hbc : listedBefore b c = true) :
    listedBefore a c = true := by
  rw [listedBefore_iff] at *
  omega

theorem listedBefore_total (a b : JobRecord) : (listedBefore a b || listedBefore b a) = true := by
  rw [Bool.or_eq_true, listedBefore_iff, listedBefore_iff]
  omega

theorem id_eq_of_listedBefore {a b : JobRecord} (hab : listedBefore a b = true) (hba : listedBefore b a = true) :
    a.id = b.id := by
  rw [listedBefore_iff] at hab hba
  have hbits : a.id.bits = b.id.bits := BitVec.eq_of_toNat_eq (by omega)
  exact congrArg JobId.mk hbits

/-- Records of different jobs are listed in one order only. -/
private theorem mergeSort_eq_of_perm {rs ts : List JobRecord} (h : rs.Perm ts)
    (hid : ∀ a ∈ rs, ∀ b ∈ rs, a.id = b.id → a = b) : rs.mergeSort listedBefore = ts.mergeSort listedBefore := by
  have hrs := List.mergeSort_perm rs listedBefore
  have hts := List.mergeSort_perm ts listedBefore
  have htrans := fun a b c => @listedBefore_trans a b c
  refine @List.Perm.eq_of_pairwise _ (fun a b => listedBefore a b = true) _ _ ?_
    (List.pairwise_mergeSort htrans listedBefore_total rs) (List.pairwise_mergeSort htrans listedBefore_total ts)
    (hrs.trans (h.trans hts.symm))
  intro a b ha hb hab hba
  exact hid a (hrs.mem_iff.1 ha) b (h.mem_iff.2 (hts.mem_iff.1 hb)) (id_eq_of_listedBefore hab hba)

/-- What a query selects does not depend on the order in which the records are given. -/
theorem select_eq_of_perm (q : ListQuery) {rs ts : List JobRecord} (h : rs.Perm ts)
    (hid : ∀ a ∈ rs, ∀ b ∈ rs, a.id = b.id → a = b) : q.select rs = q.select ts := by
  have hsort := mergeSort_eq_of_perm (h.filter q.accepts)
    fun a ha b hb => hid a (List.mem_filter.1 ha).1 b (List.mem_filter.1 hb).1
  rw [select, select, hsort]

private theorem clampSize_pos (n : Nat) : 0 < clampSize n := Nat.lt_of_lt_of_le Nat.zero_lt_one (Nat.le_max_left _ _)

/-- A listing without a filter shows each record on some page, if there are enough page numbers. -/
theorem exists_page (size : UInt32) {rs : List JobRecord} (hrs : rs.length ≤ 4294967295 * clampSize size.toNat)
    {r : JobRecord} (hr : r ∈ rs) : ∃ page, r ∈ select { page, pageSize := size } rs := by
  have hmem : r ∈ rs.mergeSort listedBefore := (List.mergeSort_perm rs listedBefore).mem_iff.2 hr
  obtain ⟨i, hi, rfl⟩ := List.getElem_of_mem hmem
  rw [(List.mergeSort_perm rs listedBefore).length_eq] at hi
  have hpos := clampSize_pos size.toNat
  have hpage : i / clampSize size.toNat < 4294967295 :=
    Nat.div_lt_of_lt_mul (Nat.mul_comm _ _ ▸ Nat.lt_of_lt_of_le hi hrs)
  have hnumber : (UInt32.ofNat (i / clampSize size.toNat + 1)).toNat = i / clampSize size.toNat + 1 :=
    UInt32.toNat_ofNat_of_lt' (Nat.succ_lt_succ hpage)
  refine ⟨UInt32.ofNat (i / clampSize size.toNat + 1), ?_⟩
  have hall : rs.filter (accepts { page := UInt32.ofNat (i / clampSize size.toNat + 1), pageSize := size }) = rs :=
    List.filter_eq_self.2 fun _ _ => rfl
  rw [select, hall, offset, limit, hnumber, Nat.max_eq_left (Nat.le_add_left 1 _), Nat.add_sub_cancel]
  generalize hc : clampSize size.toNat = c at *
  have hin : i - i / c * c < c := by
    have := Nat.div_add_mod' i c
    have := Nat.mod_lt i hpos
    omega
  have hle : i / c * c ≤ i := Nat.div_mul_le_self i c
  refine List.mem_of_getElem? (i := i - i / c * c) ?_
  rw [List.getElem?_take_of_lt hin, List.getElem?_drop, Nat.add_sub_cancel' hle]
  exact List.getElem?_eq_getElem _

end JobLedger.ListQuery
