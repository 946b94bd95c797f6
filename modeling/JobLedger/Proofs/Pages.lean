import JobLedger.Postgres.Store
import JobLedger.Proofs.QueryOrder
import Mathlib.Data.List.Nodup

/-!
# Pages of a listing

The pages of a query are windows of one list: the records that pass its filter, from the newest job to the oldest. So
the first pages, as many as are needed, show each of these records once and in order, and the pages after them are
empty. Main statement: `ListQuery.pages_partition`.
-/
namespace JobLedger.ListQuery

variable {q : ListQuery} {rs : List JobRecord} {a b : JobRecord}

/-- The record is of a job created later, or at the same time with a greater identifier. -/
def IsNewer (a b : JobRecord) : Prop := (b.createdAt.order a.createdAt).then (b.id.order a.id) = .lt

private theorem isNewer_of_listedBefore (h : listedBefore a b = true) (hid : a.id ≠ b.id) : IsNewer a b := by
  cases horder : (b.createdAt.order a.createdAt).then (b.id.order a.id) with
  | lt => exact horder
  | eq =>
    have hback : listedBefore b a = true := by
      have hboth := Ordering.then_eq_eq.mp horder
      simp only [Instant.order, JobId.order, Ordering.then_eq_eq, Int.compare_eq_eq, Nat.compare_eq_eq] at hboth
      rw [listedBefore_iff]
      omega
    exact absurd (id_eq_of_listedBefore h hback) hid
  | gt => simp [listedBefore, horder] at h

private theorem IsNewer.asymm (h : IsNewer a b) : ¬IsNewer b a := by
  intro hback
  simp only [IsNewer, Instant.order, JobId.order, Ordering.then_eq_lt, Ordering.then_eq_eq, Int.compare_eq_lt,
    Int.compare_eq_eq, Nat.compare_eq_lt, Nat.compare_eq_eq] at h hback
  omega

/-- All records that pass the filter of a query, in the order of listings. -/
def listing (q : ListQuery) (rs : List JobRecord) : List JobRecord := (rs.filter q.accepts).mergeSort listedBefore

private theorem listing_perm (q : ListQuery) (rs : List JobRecord) : (q.listing rs).Perm (rs.filter q.accepts) :=
  List.mergeSort_perm _ _

private theorem length_listing (q : ListQuery) (rs : List JobRecord) :
    (q.listing rs).length = (rs.filter q.accepts).length :=
  (listing_perm q rs).length_eq

/-- Records of different jobs are listed strictly from the newest to the oldest. -/
private theorem listing_pairwise (hid : (rs.map JobRecord.id).Nodup) : (q.listing rs).Pairwise IsNewer := by
  have htrans := fun a b c => @listedBefore_trans a b c
  have hsorted : (q.listing rs).Pairwise fun a b => listedBefore a b = true :=
    List.pairwise_mergeSort htrans listedBefore_total (rs.filter q.accepts)
  have hdistinct : (q.listing rs).Pairwise fun a b => a.id ≠ b.id := by
    have hfilter : ((rs.filter q.accepts).map JobRecord.id).Nodup := hid.sublist (List.filter_sublist.map _)
    exact List.pairwise_map.mp (((listing_perm q rs).map JobRecord.id).nodup_iff.mpr hfilter)
  exact hsorted.imp₂ (fun _ _ => isNewer_of_listedBefore) hdistinct

/-- The same query for another page. -/
def atPage (q : ListQuery) (page : UInt32) : ListQuery := { q with page := page }

@[simp] theorem limit_atPage (q : ListQuery) (page : UInt32) : (q.atPage page).limit = q.limit := rfl

@[simp] theorem listing_atPage (q : ListQuery) (page : UInt32) : (q.atPage page).listing rs = q.listing rs := rfl

/-- A page is a window of the listing. -/
private theorem select_eq (q : ListQuery) (rs : List JobRecord) :
    q.select rs = ((q.listing rs).drop q.offset).take q.limit := rfl

private theorem offset_atPage {i : Nat} (hi : i + 1 < 4294967296) :
    (q.atPage (UInt32.ofNat (i + 1))).offset = i * q.limit := by
  have hpage : (UInt32.ofNat (i + 1)).toNat = i + 1 := UInt32.toNat_ofNat_of_lt' hi
  simp only [offset, atPage, hpage, Nat.max_eq_left (Nat.le_add_left 1 i), Nat.add_sub_cancel]
  rfl

/-- The pages up to one, one after another. -/
def firstPages (q : ListQuery) (rs : List JobRecord) (n : Nat) : List JobRecord :=
  (List.range n).flatMap fun i => (q.atPage (UInt32.ofNat (i + 1))).select rs

/-- The first pages together are the front of the listing. -/
private theorem firstPages_eq_take {n : Nat} (hn : n < 4294967296) :
    q.firstPages rs n = (q.listing rs).take (n * q.limit) := by
  induction n with
  | zero => simp [firstPages]
  | succ n ih =>
    have hlast : (q.atPage (UInt32.ofNat (n + 1))).select rs = ((q.listing rs).drop (n * q.limit)).take q.limit := by
      rw [select_eq, offset_atPage hn, listing_atPage, limit_atPage]
    have hfront : q.firstPages rs (n + 1) = q.firstPages rs n ++ (q.atPage (UInt32.ofNat (n + 1))).select rs := by
      simp [firstPages, List.range_succ]
    rw [hfront, ih (by omega), hlast, Nat.succ_mul, List.take_add]

private theorem limit_le (q : ListQuery) : q.limit ≤ 1000 := by
  simp only [limit, clampSize, maxPageSize]
  omega

/-- The records before a page are fewer than 2^42. -/
private theorem offset_lt (q : ListQuery) : q.offset < 4398046511104 := by
  have hpage : max q.page.toNat 1 - 1 ≤ 4294967295 := by
    have := q.page.toNat_lt
    omega
  have hoffset : q.offset ≤ 4294967295 * 1000 := Nat.mul_le_mul hpage q.limit_le
  omega

/-- There is one list of the records that pass a filter, from the newest job to the oldest, and each page is a window
of it, as wide as the page size brought into 1 to 1000. So the pages show each of these records once and in order, on
as many pages as hold them, whatever order they are given in. A page number of zero means the first page. What stands
before a page is told to the database as it is. -/
theorem pages_partition (q : ListQuery) (hid : (rs.map JobRecord.id).Nodup) :
    (∀ ts, rs.Perm ts → q.select ts = q.select rs) ∧
    (∃ ts : List JobRecord, ts.Perm (rs.filter q.accepts) ∧ ts.Pairwise IsNewer ∧ ∀ p : UInt32, (q.atPage p).select rs =
      (ts.drop ((max p.toNat 1 - 1) * max 1 (min q.pageSize.toNat 1000))).take (max 1 (min q.pageSize.toNat 1000))) ∧
    (∀ n : UInt32, (rs.filter q.accepts).length ≤ n.toNat * q.limit →
      (q.firstPages rs n.toNat).Perm (rs.filter q.accepts) ∧ (q.firstPages rs n.toNat).Pairwise IsNewer ∧
        ∀ p, n < p → (q.atPage p).select rs = []) ∧
    (q.atPage 0).select rs = (q.atPage 1).select rs ∧
    q.limit = max 1 (min q.pageSize.toNat 1000) ∧ q.offset = (max q.page.toNat 1 - 1) * q.limit ∧
    q.offset < Nat.pow 2 63 ∧
    Postgres.Exchange.pageOf q = .selectPage q.name (q.state.map JobState.name) q.limit q.offset := by
  have hoffset := q.offset_lt
  have h63 : Nat.pow 2 63 = 9223372036854775808 := by decide
  refine ⟨fun ts hts => ?_, ⟨q.listing rs, listing_perm q rs, listing_pairwise hid, fun p => rfl⟩, fun n hn => ?_, rfl,
    rfl, rfl, by omega, ?_⟩
  · exact (select_eq_of_perm q hts fun a ha b hb => List.inj_on_of_nodup_map hid ha hb).symm
  · rw [← length_listing] at hn
    have hpages : q.firstPages rs n.toNat = q.listing rs := by
      rw [firstPages_eq_take n.toNat_lt, List.take_of_length_le hn]
    rw [hpages]
    refine ⟨listing_perm q rs, listing_pairwise hid, fun p hp => ?_⟩
    have hlater : n.toNat * q.limit ≤ (q.atPage p).offset := by
      have hlt : n.toNat < p.toNat := UInt32.lt_iff_toNat_lt.mp hp
      exact Nat.mul_le_mul_right _ (show n.toNat ≤ max p.toNat 1 - 1 by omega)
    rw [select_eq, listing_atPage, List.drop_of_length_le (Nat.le_trans hn hlater), List.take_nil]
  · have hmin : min q.offset Postgres.JobRow.maxTimeout = q.offset := by
      rw [Postgres.JobRow.maxTimeout, h63]
      omega
    rw [Postgres.Exchange.pageOf, hmin]

/-- A job with a name and a time of creation. -/
def sampleJob (n : BitVec 128) (name : String) (second : Nat) : JobRecord :=
  JobRecord.accepted ⟨n⟩ { name, timeoutSeconds := 60 } ⟨"a"⟩ (.plus .epoch (.ofSeconds second))

/-- Five jobs, one with another name and one that runs already. -/
def sampleJobs : List JobRecord :=
  [sampleJob 2 "n" 0, sampleJob 4 "m" 3, sampleJob 1 "n" 5, { sampleJob 5 "n" 2 with state := .running },
    sampleJob 3 "n" 0]

/-- The accepted ones among them with the usual name, two on a page. -/
def sampleQuery : ListQuery := { name := some "n", state := some .accepted, pageSize := 2 }

/-- The newest job comes first, and jobs created at the same time come by identifier, from the greatest. -/
private theorem sampleJobs_newest {ts : List JobRecord} (hts : ts.Perm (sampleJobs.filter sampleQuery.accepts))
    (hsorted : ts.Pairwise IsNewer) : ts = [sampleJob 1 "n" 5, sampleJob 3 "n" 0, sampleJob 2 "n" 0] := by
  have hnewest : [sampleJob 1 "n" 5, sampleJob 3 "n" 0, sampleJob 2 "n" 0].Pairwise IsNewer := by
    unfold IsNewer
    decide
  have hperm : (sampleJobs.filter sampleQuery.accepts).Perm [sampleJob 1 "n" 5, sampleJob 3 "n" 0, sampleJob 2 "n" 0] :=
    (List.Perm.swap _ _ _).trans (.cons _ (.swap _ _ _))
  exact (hts.trans hperm).eq_of_pairwise (fun _ _ _ _ hab hba => absurd hba hab.asymm) hsorted hnewest

theorem pages_of_five_jobs : (sampleJobs.map JobRecord.id).Nodup ∧
    (sampleJobs.filter sampleQuery.accepts).length ≤ (2 : UInt32).toNat * sampleQuery.limit ∧
    ((sampleQuery.atPage 1).select sampleJobs).map JobRecord.id = [⟨1⟩, ⟨3⟩] ∧
    ((sampleQuery.atPage 2).select sampleJobs).map JobRecord.id = [⟨2⟩] ∧
    (sampleQuery.firstPages sampleJobs 2).map JobRecord.id = [⟨1⟩, ⟨3⟩, ⟨2⟩] ∧
    (sampleQuery.atPage 3).select sampleJobs = [] := by
  have hid : (sampleJobs.map JobRecord.id).Nodup := by decide
  have hn : (sampleJobs.filter sampleQuery.accepts).length ≤ (2 : UInt32).toNat * sampleQuery.limit := by decide
  obtain ⟨-, ⟨ts, hts, hsorted, hwindow⟩, hpages, -⟩ := sampleQuery.pages_partition hid
  obtain ⟨hfirst, hordered, hlater⟩ := hpages 2 hn
  obtain rfl := sampleJobs_newest hts hsorted
  exact ⟨hid, hn, congrArg (List.map JobRecord.id) (hwindow 1), congrArg (List.map JobRecord.id) (hwindow 2),
    congrArg (List.map JobRecord.id) (sampleJobs_newest hfirst hordered), hlater 3 (by decide)⟩

end JobLedger.ListQuery
