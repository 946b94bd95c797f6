import JobLedger.Store.Call
/-!
# Disturbed stores

A store whose next calls can be made to fail, or to be overtaken by another writer. Expired records come
ordered by identifier, so that what a sweep does next is determined.
-/
namespace JobLedger

/-- What happens to one call instead of what the store would do. -/
inductive Disturbance where
  | fails (error : StoreError)
  /-- A record read is not there. -/
  | vanishes
  /-- Right after the read another writer marks the open records that were read. -/
  | overtaken (mark : JobRecord.Mark)
  /-- All records are taken for expired. -/
  | returnsAll

/-- A store and the disturbances still to come, each for the next call of a kind. -/
structure Disturbed (σ : Type) where
  store : σ
  awaited : List (StoreCall.Kind × Disturbance) := []

namespace Disturbed

variable {σ : Type}

def takeFirst (k : StoreCall.Kind) :
    List (StoreCall.Kind × Disturbance) → Option (Disturbance × List (StoreCall.Kind × Disturbance))
  | [] => none
  | (l, d) :: ds =>
    if l = k then some (d, ds) else (takeFirst k ds).map fun (e, es) => (e, (l, d) :: es)

def sortById (rs : List JobRecord) : List JobRecord :=
  rs.mergeSort fun a b => (a.id.order b.id).isLE

/-- Marks on records that another writer puts into the store. -/
def overtake (s : StatusStore σ) (now : Instant) (m : JobRecord.Mark) (rs : List JobRecord)
    (x : σ) : σ :=
  rs.foldl (fun x r =>
    match r.mark m now with
    | .ok next => (s.perform now (.update next) x).2
    | .error _ => x) x

/-- The answer to a call that is not disturbed. -/
def calm (s : StatusStore σ) (now : Instant) (c : StoreCall) (x : σ) : c.Answer × σ :=
  let (a, x) := s.perform now c x
  match c, a with
  | .findExpired _, a => (a.map sortById, x)
  | _, a => (a, x)

/-- The answer to a disturbed call. A disturbance that makes no sense for the call changes nothing. -/
def disturb (s : StatusStore σ) (now : Instant) (c : StoreCall) (d : Disturbance) (x : σ) :
    c.Answer × σ :=
  match d, c with
  | .fails e, _ => (.error e, x)
  | .vanishes, .get _ => (.ok none, x)
  | .overtaken m, .get id =>
    let (a, x) := calm s now (.get id) x
    (a, match a with
      | .ok (some r) => overtake s now m [r] x
      | _ => x)
  | .overtaken m, .findExpired t =>
    let (a, x) := calm s now (.findExpired t) x
    (a, match a with
      | .ok rs => overtake s now m rs x
      | _ => x)
  | .returnsAll, .findExpired _ =>
    let (a, x) := s.perform now (.list .everything) x
    (a.map sortById, x)
  | _, c => calm s now c x

def perform (s : StatusStore σ) : StatusStore (Disturbed σ) where
  perform now c x :=
    match takeFirst c.kind x.awaited with
    | some (d, rest) =>
      let (a, y) := disturb s now c d x.store
      (a, ⟨y, rest⟩)
    | none =>
      let (a, y) := calm s now c x.store
      (a, ⟨y, x.awaited⟩)

end Disturbed

end JobLedger
