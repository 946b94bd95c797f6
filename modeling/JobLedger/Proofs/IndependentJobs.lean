import JobLedger.Proofs.JobFootprints
import Mathlib.Logic.Equiv.Basic

/-!
# Operations on different jobs

Two operations on different jobs may change their order: each answers the same as before, and the process is the same
after both. Contexts are numbered in the order in which they are made, so if both operations create a job, then the two
new contexts have changed their numbers, and nothing else has.
-/
namespace JobLedger

namespace Host

variable {α β : Type} {owner : Nat → JobId} {i j : JobId} {h h' : Host Memory}

/-- Two processes are the same but for the numbers of contexts. -/
structure Similar (ρ : Equiv.Perm Nat) (h h' : Host Memory) : Prop where
  clock : h'.clock = h.clock
  records : ∀ id, h'.store.records.get? id = h.store.records.get? id
  tracked : ∀ m id, h'.tracked.get? (m, id) = (h.tracked.get? (m, id)).map ρ
  contexts : h'.contexts = h.contexts
  isCancelled : ∀ n, h'.isCancelled (ρ n) = h.isCancelled n
  isCompleted : ∀ n, h'.isCompleted (ρ n) = h.isCompleted n

/-- Processes that hold the same of every job are the same. -/
private theorem similar_of_sameFor (owner : Nat → JobId) (hs : ∀ id, SameFor owner id h h')
    (hcontexts : h'.contexts = h.contexts) : Similar (.refl Nat) h h' where
  clock := (hs default).clock.symm
  records id := (hs id).record.symm
  tracked m id := by rw [(hs id).tracked m, Equiv.coe_refl, Option.map_id, id_eq]
  contexts := hcontexts
  isCancelled n := ((hs (owner n)).isCancelled n rfl).symm
  isCompleted n := ((hs (owner n)).isCompleted n rfl).symm

theorem Similar.symm {ρ : Equiv.Perm Nat} (hs : Similar ρ h h') : Similar ρ.symm h' h where
  clock := hs.clock.symm
  records id := (hs.records id).symm
  tracked m id := by rw [hs.tracked, Option.map_map, Equiv.symm_comp_self, Option.map_id, id_eq]
  contexts := hs.contexts.symm
  isCancelled n := by rw [← hs.isCancelled, ρ.apply_symm_apply]
  isCompleted n := by rw [← hs.isCompleted, ρ.apply_symm_apply]

/-- Operations on different jobs, of which the second does not make a context. -/
private theorem Confined.commute {makes makes' : Prop} {a : Action α} {b : Action β} (ha : Confined owner i makes a)
    (hb : Confined owner j makes' b) (hij : i ≠ j) (hnot : ¬ makes') (hh : h.Assigned owner)
    (hfresh : makes → owner h.contexts = i) :
    ((h.perform Memory.store b).2.perform Memory.store a).1 = (h.perform Memory.store a).1 ∧
      ((h.perform Memory.store a).2.perform Memory.store b).1 = (h.perform Memory.store b).1 ∧
      Similar (.refl Nat) ((h.perform Memory.store a).2.perform Memory.store b).2
        ((h.perform Memory.store b).2.perform Memory.store a).2 := by
  have hvoid : ∀ {n : Nat}, makes' → owner n = j := fun hm => absurd hm hnot
  have hfirst := ha.assigned hh hfresh
  have hsecond := hb.assigned hh hvoid
  have hcontexts := hb.contexts hh hnot
  -- Neither operation changes what the other one looks at.
  obtain ⟨hresult, hsame, hgrown⟩ := ha.sees hh hsecond (hb.others hh i hij) fun _ => hcontexts.symm
  obtain ⟨hresult', hsame', -⟩ := hb.sees hh hfirst (ha.others hh j hij.symm) fun hm => absurd hm hnot
  refine ⟨hresult.symm, hresult'.symm, similar_of_sameFor owner (fun k => ?_) ?_⟩
  · by_cases hki : k = i
    · subst hki
      exact (hb.others hfirst k hij).symm.trans hsame
    by_cases hkj : k = j
    · subst hkj
      exact hsame'.symm.trans (ha.others hsecond k hij.symm)
    · have hleft := (ha.others hh k hki).trans (hb.others hfirst k hkj)
      have hright := (hb.others hh k hkj).trans (ha.others hsecond k hki)
      exact hleft.symm.trans hright
  · rw [hb.contexts hfirst hnot]
    by_cases hm : makes
    · exact (hgrown hm).symm
    · rw [ha.contexts hsecond hm, ha.contexts hh hm, hcontexts]

/-- A flag that no context has from some number on does not tell two of these numbers apart. -/
private theorem flag_swap {f : Nat → Bool} {m n : Nat} (hmn : m ≤ n) (hf : ∀ k, f k = true → k < m) (k : Nat) :
    f (Equiv.swap m n k) = f k := by
  have hnone : ∀ k, m ≤ k → f k = false := fun k hk =>
    Bool.eq_false_iff.2 fun h => absurd (hf k h) (Nat.not_lt.2 hk)
  by_cases hm : k = m
  · rw [hm, Equiv.swap_apply_left, hnone n hmn, hnone m (Nat.le_refl m)]
  · by_cases hn : k = n
    · rw [hn, Equiv.swap_apply_right, hnone n hmn, hnone m (Nat.le_refl m)]
    · rw [Equiv.swap_apply_of_ne_of_ne hm hn]

/-- What is tracked was made for the job, and no flag is set but those of contexts that were made. -/
structure Orderly (owner : Nat → JobId) (h : Host Memory) : Prop extends Assigned owner h where
  tracked_lt : ∀ m id n, h.tracked.get? (m, id) = some n → n < h.contexts
  cancelled_lt : ∀ n, h.isCancelled n = true → n < h.contexts
  completed_lt : ∀ n, h.isCompleted n = true → n < h.contexts

/-- The next contexts may be given to any job. -/
theorem Orderly.assigned (hh : h.Orderly owner) (id : JobId) :
    h.Assigned fun n => if n < h.contexts then owner n else id where
  keyed := hh.keyed
  tracked m k n hn := by rw [if_pos (hh.tracked_lt m k n hn), hh.tracked m k n hn]

/-- Two jobs created in either order: the two new contexts have changed their numbers. -/
private theorem Orderly.similar_created (hh : h.Orderly owner) (hij : i ≠ j) (m m' : Manager)
    (request request' : NewJob) :
    Similar (Equiv.swap h.contexts (h.contexts + 1)) ((h.created m i request).created m' j request')
      ((h.created m' j request').created m i request) where
  clock := rfl
  records id := by
    simp only [created, Table.get?_insert]
    by_cases hi : id = i
    · simp [hi, hij]
    · simp [hi]
  tracked k id := by
    simp only [created, Table.get?_insert]
    by_cases hi : (k, id) = (m.number, i)
    · have hj : (k, id) ≠ (m'.number, j) := fun hj => hij ((Prod.mk.inj hi).2.symm.trans (Prod.mk.inj hj).2)
      rw [if_pos hi, if_neg hj, if_pos hi, Option.map_some, Equiv.swap_apply_left]
    · rw [if_neg hi, if_neg hi]
      split
      · rw [Option.map_some, Equiv.swap_apply_right]
      · cases hn : h.tracked.get? (k, id) with
        | none => rfl
        | some n =>
          have hlt := hh.tracked_lt k id n hn
          rw [Option.map_some, Equiv.swap_apply_of_ne_of_ne (by omega) (by omega)]
  contexts := rfl
  isCancelled := flag_swap (f := h.isCancelled) (Nat.le_succ _) hh.cancelled_lt
  isCompleted := flag_swap (f := h.isCompleted) (Nat.le_succ _) hh.completed_lt

end Host

namespace Operation

/-- A result with other numbers of contexts. -/
def renamed (ρ : Equiv.Perm Nat) : (o : Operation) → o.Result → o.Result
  | .create _ _ _, a => a.map fun made => (made.1, ⟨ρ made.2.number, made.2.job⟩)
  | _, a => a

@[simp] theorem renamed_refl (o : Operation) (a : o.Result) : o.renamed (.refl Nat) a = a := by
  cases o with
  | create m id request => cases a <;> rfl
  | _ => rfl

private theorem exists_of_isCreation {o : Operation} (h : o.isCreation = true) :
    ∃ m id request, o = .create m id request := by
  cases o with
  | create m id request => exact ⟨m, id, request, rfl⟩
  | _ => cases h

end Operation

namespace Host

variable {owner : Nat → JobId} {i j : JobId} {h : Host Memory}

/-- The context of an operation was made before, for its job. -/
def Holds (owner : Nat → JobId) (o : Operation) (h : Host Memory) : Prop :=
  ∀ c, o.context? = some c → c.number < h.contexts ∧ owner c.number = c.job

/-- Two operations come to the same in either order, but for the numbers of the contexts that they make. -/
def Commute {o p : Operation} (a : Action o.Result) (b : Action p.Result) (h : Host Memory) : Prop :=
  ∃ ρ : Equiv.Perm Nat, (∀ n < h.contexts, ρ n = n) ∧
    ((h.perform Memory.store b).2.perform Memory.store a).1 = o.renamed ρ (h.perform Memory.store a).1 ∧
    (h.perform Memory.store b).1 = p.renamed ρ ((h.perform Memory.store a).2.perform Memory.store b).1 ∧
    Similar ρ ((h.perform Memory.store a).2.perform Memory.store b).2
      ((h.perform Memory.store b).2.perform Memory.store a).2

/-- They do if no context is made by either, or one is made which has the same number in either order. -/
private theorem commute_of_same {o p : Operation} {a : Action o.Result} {b : Action p.Result}
    (hs : ((h.perform Memory.store b).2.perform Memory.store a).1 = (h.perform Memory.store a).1 ∧
      ((h.perform Memory.store a).2.perform Memory.store b).1 = (h.perform Memory.store b).1 ∧
      Similar (.refl Nat) ((h.perform Memory.store a).2.perform Memory.store b).2
        ((h.perform Memory.store b).2.perform Memory.store a).2) : h.Commute a b := by
  obtain ⟨ha, hb, hsimilar⟩ := hs
  exact ⟨.refl Nat, fun _ _ => rfl, by rw [ha, Operation.renamed_refl], by rw [hb, Operation.renamed_refl],
    hsimilar⟩

theorem Similar.refl (h : Host Memory) : Similar (.refl Nat) h h :=
  similar_of_sameFor (fun _ => default) (fun id => .refl _ id h) rfl

private theorem contains_created (m : Manager) (request : NewJob) (hij : i ≠ j) (h : Host Memory) :
    (h.created m i request).store.records.contains j = h.store.records.contains j := by
  rw [created, Table.contains, Table.get?_insert, if_neg hij.symm]
  rfl

private theorem perform_create_of_taken {m : Manager} {request : NewJob} (hi : h.store.records.contains i = true) :
    h.perform Memory.store (m.create i request) = (.error (.duplicateId i), h) := by
  rw [perform_create, if_pos hi]

private theorem perform_create_of_free {m : Manager} {request : NewJob} (hi : h.store.records.contains i = false) :
    h.perform Memory.store (m.create i request) =
      (.ok (.accepted i request m.instanceId h.clock, ⟨h.contexts, i⟩), h.created m i request) := by
  rw [perform_create, if_neg (by simp [hi])]

/-- Creations of different jobs. -/
private theorem Orderly.creations_commute (hh : h.Orderly owner) (hij : i ≠ j) (m m' : Manager)
    (request request' : NewJob) :
    Commute (o := .create m i request) (p := .create m' j request') (m.create i request) (m'.create j request') h := by
  cases hi : h.store.records.contains i with
  | true =>
    have hi' : (h.perform Memory.store (m'.create j request')).2.store.records.contains i = true := by
      rw [perform_create]
      split
      · exact hi
      · exact (contains_created m' request' hij.symm h).trans hi
    apply commute_of_same
    rw [perform_create_of_taken hi, perform_create_of_taken hi']
    exact ⟨rfl, rfl, .refl _⟩
  | false =>
    have hi' := (contains_created m' request' hij.symm h).trans hi
    cases hj : h.store.records.contains j with
    | true =>
      have hj' := (contains_created m request hij h).trans hj
      apply commute_of_same
      rw [perform_create_of_taken hj, perform_create_of_free hi, perform_create_of_taken hj']
      exact ⟨rfl, rfl, .refl _⟩
    | false =>
      have hj' := (contains_created m request hij h).trans hj
      refine ⟨Equiv.swap h.contexts (h.contexts + 1),
        fun n hn => Equiv.swap_apply_of_ne_of_ne (by omega) (by omega), ?_, ?_, ?_⟩
      · rw [perform_create_of_free hj, perform_create_of_free hi, perform_create_of_free hi']
        show _ = Except.ok (_, (⟨Equiv.swap h.contexts (h.contexts + 1) h.contexts, i⟩ : JobContext))
        rw [Equiv.swap_apply_left]
        rfl
      · rw [perform_create_of_free hj, perform_create_of_free hi, perform_create_of_free hj']
        show _ = Except.ok (_, (⟨Equiv.swap h.contexts (h.contexts + 1) (h.contexts + 1), j⟩ : JobContext))
        rw [Equiv.swap_apply_right]
        rfl
      · rw [perform_create_of_free hj, perform_create_of_free hi, perform_create_of_free hi',
          perform_create_of_free hj']
        exact hh.similar_created hij m m' request request'

/-- Operations on different jobs. -/
private theorem Orderly.commute (hh : h.Orderly owner) {o p : Operation} {a : Action o.Result} {b : Action p.Result}
    (ha : o.action? = some a) (hb : p.action? = some b) (hi : o.job? = some i) (hj : p.job? = some j) (hij : i ≠ j)
    (ho : h.Holds owner o) (hp : h.Holds owner p) : h.Commute a b := by
  have hconfined : ∀ (k : JobId) {o : Operation} {a : Action o.Result} {i : JobId}, o.action? = some a →
      o.job? = some i → h.Holds owner o →
      Confined (fun n => if n < h.contexts then owner n else k) i (o.isCreation = true) a := by
    intro k o a i ha hi ho
    refine Operation.confined ha hi fun c hc => ?_
    rw [if_pos (ho c hc).1]
    exact (ho c hc).2
  have hnext : ∀ k, (fun n => if n < h.contexts then owner n else k) h.contexts = k := fun k => if_neg (Nat.lt_irrefl _)
  cases hcreates : p.isCreation with
  | false =>
    exact commute_of_same ((hconfined i ha hi ho).commute (hconfined i hb hj hp) hij (by simp [hcreates])
      (hh.assigned i) fun _ => hnext i)
  | true =>
    cases hcreates' : o.isCreation with
    | false =>
      obtain ⟨hleft, hright, hsimilar⟩ := (hconfined j hb hj hp).commute (hconfined j ha hi ho) hij.symm
        (by simp [hcreates']) (hh.assigned j) fun _ => hnext j
      exact commute_of_same ⟨hright, hleft, hsimilar.symm⟩
    | true =>
      obtain ⟨m, i', request, rfl⟩ := Operation.exists_of_isCreation hcreates'
      obtain ⟨m', j', request', rfl⟩ := Operation.exists_of_isCreation hcreates
      cases ha; cases hb; cases hi; cases hj
      exact hh.creations_commute hij m m' request request'

end Host

/-- In every process that a run reaches, each context has one job, and what is tracked, signalled or noted is about
contexts that were made; so is every context that an operation may be given. -/
private theorem World.Reachable.orderly {m₀ : Memory} {w : World} (hm : m₀.Keyed) (hw : w.Reachable m₀) :
    ∃ owner, w.host.Orderly owner ∧ ∀ o, w.allows o = true → w.host.Holds owner o := by
  have hsound := hw.sound hm
  have hsignals := hw.signals hm
  have hone : ∀ n, ∃ id, ∀ c, w.HasOpened c → c.number = n → id = c.job := by
    intro n
    by_cases hn : ∃ c, w.HasOpened c ∧ c.number = n
    · obtain ⟨c, hc, rfl⟩ := hn
      exact ⟨c.job, fun d hd hcd => congrArg JobContext.job (hsound.handles.openedOnce c d hc hd hcd.symm)⟩
    · exact ⟨default, fun c hc hcn => absurd ⟨c, hc, hcn⟩ hn⟩
  obtain ⟨owner, howner⟩ := Classical.axiomOfChoice hone
  have hlt : ∀ c, w.HasOpened c → c.number < w.host.contexts := by
    rintro c ⟨e, he, m, ho⟩
    exact (hsound.handles.opened e he m c ho).1
  refine ⟨owner, ⟨⟨hsound.ledger.keyed, fun m id n hn => ?_⟩, fun m id n hn => ?_, fun n hn => ?_, fun n hn => ?_⟩,
    fun o ho c hc => ?_⟩
  · exact howner n ⟨n, id⟩ (Scene.hasOpened_of_hasMade (hsignals.tracked hn)) rfl
  · exact hlt ⟨n, id⟩ (Scene.hasOpened_of_hasMade (hsignals.tracked hn))
  · obtain ⟨k, id, -, hmade⟩ := hsignals.cancelled hn
    exact hlt ⟨n, id⟩ (Scene.hasOpened_of_hasMade hmade)
  · obtain ⟨c, hc, rfl, -⟩ := hsound.handles.completed n (List.contains_iff_mem.1 hn)
    exact hlt c hc
  · have hopened : w.HasOpened c := hsound.hasOpened_of_yields (by simpa [World.allows, hc] using ho)
    exact ⟨hlt c hopened, howner c.number c hopened rfl⟩

/-- Operations on different jobs, through any managers and contexts, are answered the same in either order and leave
the same records, tracked contexts, signals and notes of outcomes; if both have made a context, then the new contexts
have each other's numbers. Each of them leaves alone what the process holds of every other job. -/
theorem operations_on_different_jobs_commute {owner : Nat → JobId} {h : Host Memory} (hh : h.Orderly owner)
    {o p : Operation} {a : Action o.Result} {b : Action p.Result} (ha : o.action? = some a) (hb : p.action? = some b)
    {i j : JobId} (hi : o.job? = some i) (hj : p.job? = some j) (hij : i ≠ j) (ho : h.Holds owner o)
    (hp : h.Holds owner p) :
    h.Commute a b ∧ ∀ k, k ≠ i → Host.SameFor owner k h (h.perform Memory.store a).2 :=
  ⟨hh.commute ha hb hi hj hij ho hp,
    (Operation.confined ha hi fun c hc => (ho c hc).2).others hh.toAssigned⟩

/-- The outcome of one job and the creation of another. -/
theorem outcome_and_creation_commute :
    World.sample.host.Commute (o := .setResult World.sampleContext .null)
        (p := .create World.sampleManager ⟨2⟩ ⟨"n", 60, none, none⟩) (World.sampleContext.setResult .null)
        (World.sampleManager.create ⟨2⟩ ⟨"n", 60, none, none⟩) ∧
      (World.sample.host.perform Memory.store (World.sampleContext.setResult .null)).2.completed = [0] ∧
      (World.sample.host.perform Memory.store
        (World.sampleManager.create ⟨2⟩ ⟨"n", 60, none, none⟩)).2.contexts = 2 := by
  obtain ⟨owner, hh, hholds⟩ := World.Reachable.orderly Memory.empty_keyed (World.sample_reachable [])
  obtain ⟨hcommute, -⟩ := operations_on_different_jobs_commute hh (o := .setResult World.sampleContext .null)
    (p := .create World.sampleManager ⟨2⟩ ⟨"n", 60, none, none⟩) (i := ⟨1⟩) (j := ⟨2⟩) rfl rfl rfl rfl (by decide)
    (hholds _ rfl) (hholds _ rfl)
  exact ⟨hcommute, rfl, rfl⟩

end JobLedger
