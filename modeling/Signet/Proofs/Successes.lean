/-!
# Results of several steps

What is put together from steps that may fail succeeds if and only if each of them does. Each lemma
is about one way of putting steps together, so that a result is taken apart in the order in which it
was made.
-/

namespace Signet

variable {ε φ α β : Type}

theorem bind_eq_ok_iff {first : Except ε α} {next : α → Except ε β} {result : β} :
    first >>= next = .ok result ↔ ∃ value, first = .ok value ∧ next value = .ok result := by
  cases first with
  | error error => exact ⟨nofun, fun ⟨_, isOk, _⟩ => nomatch isOk⟩
  | ok value =>
    exact ⟨fun isOk => ⟨value, rfl, isOk⟩,
      fun ⟨_, isOk, rest⟩ => Except.ok.inj isOk ▸ rest⟩

/-- An error that no step has is not the error of the whole. -/
theorem bind_ne_error {first : Except ε α} {next : α → Except ε β} {error : ε}
    (first_ne : first ≠ .error error) (next_ne : ∀ value, next value ≠ .error error) :
    first >>= next ≠ .error error := by
  cases first with
  | error other =>
    exact fun isError => first_ne (congrArg Except.error (Except.error.inj isError))
  | ok value => exact next_ne value

theorem map_eq_ok_iff {first : Except ε α} {next : α → β} {result : β} :
    first.map next = .ok result ↔ ∃ value, first = .ok value ∧ next value = result := by
  cases first with
  | error error => exact ⟨nofun, fun ⟨_, isOk, _⟩ => nomatch isOk⟩
  | ok value =>
    refine ⟨fun isOk => ⟨value, rfl, Except.ok.inj isOk⟩, fun ⟨_, isOk, same⟩ => ?_⟩
    cases isOk
    exact congrArg Except.ok same

/-- To tell errors in other words changes no success. -/
theorem mapError_eq_ok_iff {first : Except ε α} {convert : ε → φ} {result : α} :
    first.mapError convert = .ok result ↔ first = .ok result := by
  cases first with
  | error error => exact ⟨nofun, nofun⟩
  | ok value => exact ⟨congrArg _ ∘ Except.ok.inj, congrArg _ ∘ Except.ok.inj⟩

end Signet
