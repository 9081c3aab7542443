import Mathlib.Tactic

/-!
# `Autonomy.Alignment` — estimates scored against truth at their own stamp

`autonomy/ros2/src/lhr_metrics/lhr_metrics/alignment.py`: `TruthAligner`. Numbers are those of an ordered field; `hypot` and
`_wrap` are parameters.

## Contents
- **Samples.** `Sample`, `interpolate`, `error`.
- **The aligner.** `drain`, `TruthAligner.addTruth`, `TruthAligner.addEstimate`.
- **Runs.** `Event`, `errors`.
-/

namespace Lhre.Autonomy.Alignment

variable {K : Type} [Field K] [LinearOrder K] (hypot : K → K → K) (wrap : K → K)

/-! ## Samples -/

/-- A stamped pose, of the truth or of the estimator. -/
structure Sample (K : Type) where
  stamp : K
  x : K
  y : K
  yaw : K
deriving DecidableEq, Repr

/-- The pose between two samples. -/
def lerp (a b : Sample K) (stamp : K) : Sample K :=
  let f := (stamp - a.stamp) / (b.stamp - a.stamp)
  { stamp := stamp
    x := a.x + f * (b.x - a.x)
    y := a.y + f * (b.y - a.y)
    yaw := a.yaw + f * wrap (b.yaw - a.yaw) }

/-- `_interpolate`; `none` where no truth is at or past the stamp. -/
def interpolate (truth : List (Sample K)) (stamp : K) : Option (Sample K) :=
  let before := truth.takeWhile fun sample => decide (sample.stamp < stamp)
  match truth.dropWhile fun sample => decide (sample.stamp < stamp) with
  | [] => none
  | b :: _ =>
      match before.getLast? with
      | none => some b
      | some a => if b.stamp = stamp then some b else some (lerp wrap a b stamp)

/-- The position and the yaw error of an estimate. -/
def error (e t : Sample K) : K × K := (hypot (e.x - t.x) (e.y - t.y), |wrap (e.yaw - t.yaw)|)

/-! ## The aligner -/

/-- `TruthAligner`. -/
structure TruthAligner (K : Type) where
  horizon : K
  truth : List (Sample K) := []
  pending : List (Sample K) := []

/-- `_drain`: the errors, and the estimates that are still pending. -/
def drain (truth : List (Sample K)) : List (Sample K) → List (K × K) × List (Sample K)
  | [] => ([], [])
  | e :: pending =>
      if truth.getLast?.any fun last => decide (e.stamp ≤ last.stamp) then
        let (errors, rest) := drain truth pending
        -- before the buffered truth: no honest comparison
        if truth.head?.any fun first => decide (e.stamp < first.stamp) then (errors, rest)
        else (((interpolate wrap truth e.stamp).map (error hypot wrap e)).toList ++ errors, rest)
      else ([], e :: pending)

/-- `_drain` of the whole aligner. -/
def TruthAligner.drained (self : TruthAligner K) : TruthAligner K × List (K × K) :=
  let (errors, pending) := drain hypot wrap self.truth self.pending
  ({ self with pending := pending }, errors)

/-- The samples that are not older than the horizon when one with `stamp` comes. -/
def TruthAligner.recent (self : TruthAligner K) (stamp : K) (samples : List (Sample K)) : List (Sample K) :=
  samples.dropWhile fun sample => decide (sample.stamp < stamp - self.horizon)

/-- `add_truth`. -/
def TruthAligner.addTruth (self : TruthAligner K) (t : Sample K) : TruthAligner K × List (K × K) :=
  if self.truth.getLast?.any fun last => decide (t.stamp ≤ last.stamp) then (self, [])
  else TruthAligner.drained hypot wrap { self with truth := self.recent t.stamp (self.truth ++ [t]) }

/-- `add_estimate`. -/
def TruthAligner.addEstimate (self : TruthAligner K) (e : Sample K) : TruthAligner K × List (K × K) :=
  TruthAligner.drained hypot wrap { self with pending := self.recent e.stamp (self.pending ++ [e]) }

/-! ## Runs -/

/-- What is delivered. -/
inductive Event (K : Type)
  | truth (t : Sample K)
  | estimate (e : Sample K)

/-- One delivery. -/
def TruthAligner.step (self : TruthAligner K) : Event K → TruthAligner K × List (K × K)
  | .truth t => self.addTruth hypot wrap t
  | .estimate e => self.addEstimate hypot wrap e

/-- The aligner behind a list of deliveries, and all errors it has reported. -/
def run (horizon : K) (events : List (Event K)) : TruthAligner K × List (K × K) :=
  events.foldl (fun (self, errors) event =>
    let (self', new) := self.step hypot wrap event
    (self', errors ++ new)) ({ horizon := horizon }, [])

end Lhre.Autonomy.Alignment
