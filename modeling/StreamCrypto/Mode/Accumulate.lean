/-!
# Mapping with a state

A list is mapped from left to right while a state is passed along. Cutting the list in two
and mapping the second part from where the first one ended changes nothing:
`mapAccum_append`.
-/

namespace StreamCrypto.Mode

variable {σ α β : Type}

/-- The outputs in order, and the state after the last of them. -/
@[specialize] def mapAccum (step : σ → α → β × σ) (state : σ) (items : List α) : List β × σ :=
  let last := items.foldl (fun (current : List β × σ) item ↦
    let next := step current.2 item
    (next.1 :: current.1, next.2)) ([], state)
  (last.1.reverse, last.2)

@[simp] theorem mapAccum_nil (step : σ → α → β × σ) (state : σ) :
    mapAccum step state [] = ([], state) := rfl

/-- Outputs that are already there stay in front. -/
theorem foldl_outputs (step : σ → α → β × σ) (outputs : List β) (state : σ) (items : List α) :
    items.foldl (fun (current : List β × σ) item ↦
        ((step current.2 item).1 :: current.1, (step current.2 item).2)) (outputs, state) =
      ((mapAccum step state items).1.reverse ++ outputs, (mapAccum step state items).2) := by
  induction items generalizing outputs state with
  | nil => simp
  | cons item items ih =>
    have first := ih ((step state item).1 :: outputs) (step state item).2
    have second := ih [(step state item).1] (step state item).2
    simp only [mapAccum, List.foldl_cons] at first second ⊢
    rw [first, second]
    simp

theorem mapAccum_cons (step : σ → α → β × σ) (state : σ) (item : α) (items : List α) :
    mapAccum step state (item :: items) =
      ((step state item).1 :: (mapAccum step (step state item).2 items).1,
        (mapAccum step (step state item).2 items).2) := by
  have h := foldl_outputs step [(step state item).1] (step state item).2 items
  simp only [mapAccum, List.foldl_cons] at h ⊢
  rw [h]
  simp

theorem mapAccum_append (step : σ → α → β × σ) (state : σ) (first second : List α) :
    mapAccum step state (first ++ second) =
      ((mapAccum step state first).1 ++ (mapAccum step (mapAccum step state first).2 second).1,
        (mapAccum step (mapAccum step state first).2 second).2) := by
  induction first generalizing state with
  | nil => simp
  | cons item items ih => simp [mapAccum_cons, ih]

@[simp] theorem length_mapAccum (step : σ → α → β × σ) (state : σ) (items : List α) :
    (mapAccum step state items).1.length = items.length := by
  induction items generalizing state with
  | nil => rfl
  | cons item items ih => simp [mapAccum_cons, ih]

end StreamCrypto.Mode
