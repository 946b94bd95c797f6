import JobLedger.Proofs.Visibility

/-!
# What the index holds

Every creation puts an identifier in front of the index and then cuts it. As long as the index lives, it holds the
identifiers of the newest jobs, as many as its cap says. A cap past 2⁶³ makes the position of the cut a negative
one, which counts from the end: then not even a single identifier is kept.
-/
namespace JobLedger.Redis

/-- The index has not expired, if it is there. -/
def IndexLives (s : Settings) (now : Instant) (x : Server) : Prop :=
  (x.database.entries.get? s.indexKey).all (fun e => x.database.serves now.millis e) = true

instance (s : Settings) (now : Instant) (x : Server) : Decidable (IndexLives s now x) :=
  inferInstanceAs (Decidable (_ = true))

/-- Creations that all succeed, none of which comes when the index has expired. -/
def CreationRun (s : Settings) : List (Instant × JobRecord) → Server → Prop
  | [], _ => True
  | (now, r) :: jobs, x => IndexLives s now x ∧ ((store s).perform now (.create r) x).1.isOk = true ∧
    CreationRun s jobs ((store s).perform now (.create r) x).2

instance CreationRun.decide (s : Settings) :
    (jobs : List (Instant × JobRecord)) → (x : Server) → Decidable (CreationRun s jobs x)
  | [], _ => inferInstanceAs (Decidable True)
  | (now, r) :: jobs, x =>
    have := CreationRun.decide s jobs ((store s).perform now (.create r) x).2
    inferInstanceAs (Decidable (_ ∧ _ ∧ _))

/-- The calls that create jobs, each at its time. -/
def creations (jobs : List (Instant × JobRecord)) : List (Instant × StoreCall) := jobs.map fun c => (c.1, .create c.2)

/-- The identifiers of jobs, the last one first. -/
def newestFirst (jobs : List (Instant × JobRecord)) : List String := (jobs.map fun c => c.2.id.text).reverse

/-- What is under the key of the index, expired or not. -/
def IndexHolds (s : Settings) (items : List String) (d : Database) : Prop :=
  ((d.entries.get? s.indexKey).map Entry.content).getD (.list []) = .list items

variable {s : Settings} {now : Instant} {x : Server} {items : List String} {jobs : List (Instant × JobRecord)}

theorem IndexHolds.list? (h : IndexHolds s items x.database) (hlives : IndexLives s now x) :
    x.database.list? now.millis s.indexKey = some items := by
  rw [Database.list?, Database.entry?]
  rw [IndexHolds] at h
  rw [IndexLives] at hlives
  cases he : x.database.entries.get? s.indexKey with
  | none =>
    rw [he] at h
    exact congrArg some (Content.list.inj h)
  | some e =>
    rw [he] at h hlives
    have hcontent : e.content = .list items := h
    have hlive : x.database.serves now.millis e = true := hlives
    rw [Option.filter_some, if_pos hlive, Option.map_some, hcontent]

/-- A creation puts its identifier in front of what the index holds, which is then cut. -/
theorem IndexHolds.create (h : IndexHolds s items x.database) (hlives : IndexLives s now x) {r : JobRecord}
    (hok : ((store s).perform now (.create r) x).1.isOk = true) :
    IndexHolds s (s.kept (r.id.text :: items)) ((store s).perform now (.create r) x).2.database := by
  cases hp : (store s).perform now (.create r) x with
  | mk a y =>
    rw [hp] at hok
    rcases perform_create_cut hp (answered_of_isOk hok) with ⟨rfl, -⟩ | ⟨-, -, t, u, ids, -, -, hids, hy⟩
    · cases hok
    · obtain rfl : items = ids := Option.some.inj ((h.list? hlives).symm.trans hids)
      rw [IndexHolds, hy, if_pos rfl]
      split
      · rename_i hnil
        rw [hnil]
        rfl
      · rfl

/-- The index after jobs were created. -/
def Settings.indexAfter (s : Settings) (items : List String) (jobs : List (Instant × JobRecord)) : List String :=
  jobs.foldl (fun items c => s.kept (c.2.id.text :: items)) items

theorem IndexHolds.after (h : IndexHolds s items x.database) (hrun : CreationRun s jobs x) :
    IndexHolds s (s.indexAfter items jobs) ((store s).after x (creations jobs)).database := by
  induction jobs generalizing x items with
  | nil => exact h
  | cons c jobs ih => exact ih (h.create hrun.1 hrun.2.1) hrun.2.2

private theorem Settings.indexAfter_eq_take (h : s.capacity ≤ Nat.pow 2 63) (jobs : List (Instant × JobRecord))
    (older : List String) :
    s.indexAfter (older.take s.capacity) jobs = (newestFirst jobs ++ older).take s.capacity := by
  induction jobs generalizing older with
  | nil => rfl
  | cons c jobs ih =>
    have hstep : s.kept (c.2.id.text :: older.take s.capacity) = (c.2.id.text :: older).take s.capacity := by
      rw [kept_eq_take h, take_take_cons]
    have hnewest : newestFirst (c :: jobs) ++ older = newestFirst jobs ++ c.2.id.text :: older := by
      simp [newestFirst]
    rw [hnewest, ← ih, ← hstep]
    rfl

/-- With a cap past the greatest position, a creation that finds no index leaves none behind. -/
private theorem Settings.indexAfter_of_large (h : Nat.pow 2 63 < s.capacity) : s.indexAfter [] jobs = [] := by
  induction jobs with
  | nil => rfl
  | cons c jobs ih =>
    have hone : s.kept [c.2.id.text] = [] := by
      have hlt := s.capacity_lt
      rw [kept_of_large h, List.length_singleton, Nat.sub_eq_zero_of_le (by omega), List.take_zero]
    change s.indexAfter (s.kept [c.2.id.text]) jobs = []
    rw [hone, ih]

/-- While the index lives, it holds the identifiers of the jobs created last, the newest first and as many as the cap
says, if the cap is at most 2⁶³. With a greater cap it holds none. -/
theorem index_holds_newest (hx : x.database.entries.get? s.indexKey = none) (hrun : CreationRun s jobs x) {y : Server}
    (hy : (store s).after x (creations jobs) = y) (hlives : IndexLives s now y) :
    y.database.list? now.millis s.indexKey =
      some (if s.capacity ≤ Nat.pow 2 63 then (newestFirst jobs).take s.capacity else []) ∧
    (s.capacity ≤ Nat.pow 2 63 → jobs.length ≤ s.capacity →
      y.database.list? now.millis s.indexKey = some (newestFirst jobs)) := by
  have hnone : IndexHolds s [] x.database := by
    rw [IndexHolds, hx]
    rfl
  have hlist := (hy ▸ hnone.after hrun).list? hlives
  have hitems : s.indexAfter [] jobs =
      if s.capacity ≤ Nat.pow 2 63 then (newestFirst jobs).take s.capacity else [] := by
    split
    · rename_i hcap
      have htake := Settings.indexAfter_eq_take hcap jobs []
      rwa [List.take_nil, List.append_nil] at htake
    · rename_i hcap
      exact Settings.indexAfter_of_large (Nat.lt_of_not_le hcap)
  rw [hitems] at hlist
  refine ⟨hlist, fun hcap hfew => ?_⟩
  have hlength : (newestFirst jobs).length ≤ s.capacity := by simpa [newestFirst] using hfew
  rw [hlist, if_pos hcap, List.take_of_length_le hlength]

/-- Creations of jobs with successive numbers, all at once. -/
def numberedRun (n : Nat) : List (Instant × JobRecord) :=
  (List.range n).map fun i =>
    (.epoch, .accepted ⟨BitVec.ofNat 128 i⟩ { name := "job", timeoutSeconds := 60 } ⟨"a"⟩ .epoch)

/-- Of three jobs, an index with a cap of two holds the two newest. -/
theorem capped_index_holds_two :
    ((store { indexCap := 2 }).after .empty (creations (numberedRun 3))).database.list? 0 "longrun:jobs:index" =
      some ["00000000-0000-0000-0000-000000000002", "00000000-0000-0000-0000-000000000001"] :=
  (@index_holds_newest { indexCap := 2 } .epoch .empty (numberedRun 3) rfl
    (by decide +kernel) _ rfl (by decide +kernel)).1.trans (by decide +kernel)

/-- The greatest cap of all. -/
def uncapped : Settings := { indexCap := 18446744073709551615 }

/-- With the greatest cap of all, the index does not even hold a single job. -/
theorem greatest_cap_holds_none :
    CreationRun uncapped (numberedRun 1) .empty ∧
    IndexLives uncapped .epoch ((store uncapped).after .empty (creations (numberedRun 1))) ∧
    ((store uncapped).after .empty (creations (numberedRun 1))).database.list? 0 uncapped.indexKey = some [] ∧
    uncapped.capacity = 18446744073709551615 ∧
    (newestFirst (numberedRun 1)).take uncapped.capacity = ["00000000-0000-0000-0000-000000000000"] :=
  ⟨by decide +kernel, by decide +kernel, by decide +kernel, rfl, by decide +kernel⟩

end JobLedger.Redis
