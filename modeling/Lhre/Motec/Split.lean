import Mathlib.Tactic
import Lhre.Theory.Dict

/-!
# `Motec.Split` — the gate crossings of an export

`gateCrossingTimes` of the viewer (`viewer_tool/src/lib/motec/split.ts`): for each gate of a track, the times of the fixes
whose step crosses it. Numbers are exact.
-/

namespace Lhre.Motec

/-- A fix of the viewer. -/
structure GpsPoint where
  t : ℚ
  lat : ℚ
  lon : ℚ
deriving DecidableEq, Repr

/-- A gate of a track. -/
structure GateLine where
  id : String
  lat1 : ℚ
  lon1 : ℚ
  lat2 : ℚ
  lon2 : ℚ
deriving DecidableEq, Repr

/-- `orientation`. -/
def orientation (a b c : ℚ × ℚ) : ℚ := (b.2 - a.2) * (c.1 - b.1) - (b.1 - a.1) * (c.2 - b.2)

/-- `segmentsCross`. -/
def segmentsCross (a b c d : ℚ × ℚ) : Bool :=
  let o1 := orientation a b c
  let o2 := orientation a b d
  let o3 := orientation c d a
  let o4 := orientation c d b
  decide (o1 * o2 < 0) && decide (o3 * o4 < 0)

/-- The step between two fixes crosses a gate. -/
def GateLine.crossed (gate : GateLine) (prev cur : GpsPoint) : Bool :=
  segmentsCross (prev.lon, prev.lat) (cur.lon, cur.lat) (gate.lon1, gate.lat1) (gate.lon2, gate.lat2)

/-- The loop over the gates for one step. -/
def pushCrossings (gates : List GateLine) (prev cur : GpsPoint) (crossings : Dict String (List ℚ)) :
    Dict String (List ℚ) :=
  gates.foldl (fun crossings gate =>
    if gate.crossed prev cur then Dict.set gate.id ((Dict.get? crossings gate.id).getD [] ++ [cur.t]) crossings
    else crossings) crossings

/-- The loop over the steps. -/
def crossingLoop (gates : List GateLine) : List GpsPoint → Dict String (List ℚ) → Dict String (List ℚ)
  | prev :: cur :: rest, crossings => crossingLoop gates (cur :: rest) (pushCrossings gates prev cur crossings)
  | _, crossings => crossings

/-- `gateCrossingTimes`. -/
def gateCrossingTimes (points : List GpsPoint) (gates : List GateLine) : Dict String (List ℚ) :=
  let crossings := gates.foldl (fun crossings gate => Dict.set gate.id [] crossings) []
  if points.length < 2 then crossings else crossingLoop gates points crossings

section Loop

variable {gates : List GateLine} {id : String} {times : List ℚ} {crossings : Dict String (List ℚ)}

/-- **The times of one gate** after a step: those of before, and one for each crossing of a gate of its id. -/
theorem get?_pushCrossings (prev cur : GpsPoint) (h : Dict.get? crossings id = some times) :
    Dict.get? (pushCrossings gates prev cur crossings) id =
      some (times ++ ((gates.filter fun gate => gate.id = id).filter fun gate => gate.crossed prev cur).map
        fun _ => cur.t) := by
  induction gates generalizing times crossings with
  | nil => simpa [pushCrossings] using h
  | cons gate gates ih =>
      rw [pushCrossings, List.foldl_cons, ← pushCrossings]
      by_cases hid : gate.id = id
      · rw [List.filter_cons_of_pos (by simpa using hid)]
        by_cases hcross : gate.crossed prev cur = true
        · rw [if_pos hcross, List.filter_cons, if_pos hcross, List.map_cons]
          have hset : Dict.get? (Dict.set gate.id ((Dict.get? crossings gate.id).getD [] ++ [cur.t]) crossings) id =
              some (times ++ [cur.t]) := by
            rw [Dict.get?_set, if_pos hid.symm, hid, h, Option.getD_some]
          rw [ih hset, List.append_assoc]
          rfl
        · rw [if_neg hcross, List.filter_cons, if_neg hcross]
          exact ih h
      · rw [List.filter_cons_of_neg (by simpa using hid)]
        by_cases hcross : gate.crossed prev cur = true
        · rw [if_pos hcross]
          exact ih (by rw [Dict.get?_set_of_ne (Ne.symm hid)]; exact h)
        · rw [if_neg hcross]
          exact ih h

/-- Every gate starts without a crossing. -/
theorem get?_initial {gate : GateLine} (h : gate ∈ gates ∨ Dict.get? crossings gate.id = some []) :
    Dict.get? (gates.foldl (fun crossings gate => Dict.set gate.id [] crossings) crossings) gate.id = some [] := by
  induction gates generalizing crossings with
  | nil => exact h.resolve_left List.not_mem_nil
  | cons g gates ih =>
      rw [List.foldl_cons]
      apply ih
      rcases h with hmem | hget
      · rcases List.mem_cons.mp hmem with rfl | hmem
        · right
          exact Dict.get?_set_self _ _ _
        · exact Or.inl hmem
      · right
        rw [Dict.get?_set]
        split
        · rfl
        · exact hget

end Loop

end Lhre.Motec
