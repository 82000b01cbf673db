import Mathlib.Data.List.Induction

/-!
# Done and not undone since

A history is a list of events, the oldest first. What was done at some point of it holds at its end
if no later event has undone it. One more event either does it, or leaves it as it was before, or
undoes it.
-/

namespace RemoteMemory

variable {ε : Type} {did undid : ε → Prop} {history : List ε} {event : ε}

/-- Done by an event, and not undone by a later one. -/
def Since (did undid : ε → Prop) (history : List ε) : Prop :=
  ∃ before event after, history = before ++ event :: after ∧ did event ∧
    ∀ later ∈ after, ¬ undid later

/-- The last event stands at the point of a split or in the part behind it. -/
theorem concat_eq_split_iff {before after : List ε} {point : ε} :
    history ++ [event] = before ++ point :: after ↔
      (history = before ∧ event = point ∧ after = []) ∨
        ∃ rest, history = before ++ point :: rest ∧ after = rest ++ [event] := by
  constructor
  · intro h
    rcases List.eq_nil_or_concat after with rfl | ⟨rest, last, rfl⟩
    · obtain ⟨hbefore, hpoint⟩ := List.append_inj' h rfl
      exact .inl ⟨hbefore, List.singleton_inj.mp hpoint, rfl⟩
    · rw [List.concat_eq_append, ← List.cons_append, ← List.append_assoc] at h
      obtain ⟨hbefore, hlast⟩ := List.append_inj' h rfl
      exact .inr ⟨rest, hbefore, by rw [List.concat_eq_append, List.singleton_inj.mp hlast]⟩
  · rintro (⟨rfl, rfl, rfl⟩ | ⟨rest, rfl, rfl⟩)
    · rfl
    · rw [← List.cons_append, ← List.append_assoc]

theorem not_since_nil : ¬ Since did undid [] := by
  rintro ⟨before, event, after, h, -⟩
  simp at h

theorem since_concat_iff :
    Since did undid (history ++ [event]) ↔ did event ∨ Since did undid history ∧ ¬ undid event := by
  constructor
  · rintro ⟨before, point, after, hsplit, hdid, hkept⟩
    rcases concat_eq_split_iff.mp hsplit with ⟨-, rfl, -⟩ | ⟨rest, hrest, rfl⟩
    · exact .inl hdid
    · refine .inr ⟨⟨before, point, rest, hrest, hdid, fun later hlater => ?_⟩, ?_⟩
      · exact hkept later (List.mem_append_left _ hlater)
      · exact hkept event (List.mem_append_right _ List.mem_cons_self)
  · rintro (hdid | ⟨⟨before, point, after, rfl, hdid, hkept⟩, hevent⟩)
    · exact ⟨history, event, [], rfl, hdid, by simp⟩
    · refine ⟨before, point, after ++ [event], by simp, hdid, fun later hlater => ?_⟩
      rcases List.mem_append.mp hlater with hold | hnew
      · exact hkept later hold
      · rwa [List.mem_singleton.mp hnew]

/-! ## A history of which only a part is looked at -/

theorem filterMap_concat {β : Type} (told : ε → Option β) (history : List ε) (event : ε) :
    (history ++ [event]).filterMap told = history.filterMap told ++ (told event).toList := by
  rw [List.filterMap_append, List.filterMap_cons, List.filterMap_nil]
  cases told event <;> rfl

theorem since_filterMap_iff {β : Type} {told : ε → Option β} {did undid : β → Prop} :
    Since did undid (history.filterMap told) ↔
      Since (fun event => ∃ part, told event = some part ∧ did part)
        (fun event => ∃ part, told event = some part ∧ undid part) history := by
  induction history using List.reverseRecOn with
  | nil => simp [not_since_nil]
  | append_singleton history event ih =>
      rw [filterMap_concat, since_concat_iff, ← ih]
      cases told event with
      | none => simp
      | some part =>
          rw [Option.toList_some, since_concat_iff]
          simp

end RemoteMemory
