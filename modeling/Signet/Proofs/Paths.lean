import Signet.Http.Router

/-!
# Paths and what they stand for

A path is routed by its segments. Segments are what stands between slashes, as it stands there, and
a path is put together from its segments again (`Http.segments?_eq_some_iff`). So each route has
just the paths that one expects: the health check has one (`Http.Route.ofPath?_eq_healthcheck_iff`),
and an operation has one for each text without a slash that may stand for an endpoint
(`Http.Route.ofPath?_eq_operation_iff`).
-/

namespace Signet

namespace Http

/-! ## Segments -/

/-- What stands between the slashes of characters. -/
def splitAtSlashes (characters : List Char) : List (List Char) :=
  characters.foldr addToSegments [[]]

theorem splitAtSlashes_slash (characters : List Char) :
    splitAtSlashes ('/' :: characters) = [] :: splitAtSlashes characters := rfl

theorem splitAtSlashes_cons {c : Char} {characters first : List Char} {others : List (List Char)}
    (notSlash : c ≠ '/') (split : splitAtSlashes characters = first :: others) :
    splitAtSlashes (c :: characters) = (c :: first) :: others := by
  show addToSegments c (splitAtSlashes characters) = _
  rw [split]
  exact if_neg notSlash

theorem exists_splitAtSlashes (characters : List Char) :
    ∃ first others, splitAtSlashes characters = first :: others := by
  induction characters with
  | nil => exact ⟨[], [], rfl⟩
  | cons c characters ih =>
    by_cases isSlash : c = '/'
    · subst isSlash
      exact ⟨[], _, rfl⟩
    · obtain ⟨first, others, split⟩ := ih
      exact ⟨c :: first, others, splitAtSlashes_cons isSlash split⟩

/-- What is split can be put together again. -/
theorem flatMap_splitAtSlashes (characters : List Char) :
    (splitAtSlashes characters).flatMap ('/' :: ·) = '/' :: characters := by
  induction characters with
  | nil => rfl
  | cons c characters ih =>
    by_cases isSlash : c = '/'
    · subst isSlash
      rw [splitAtSlashes_slash, List.flatMap_cons, ih]
      rfl
    · obtain ⟨first, others, split⟩ := exists_splitAtSlashes characters
      rw [split, List.flatMap_cons, List.cons_append, List.cons.injEq] at ih
      rw [splitAtSlashes_cons isSlash split, List.flatMap_cons, List.cons_append, List.cons_append,
        ih.2]

theorem not_mem_of_mem_splitAtSlashes {characters segment : List Char}
    (isSegment : segment ∈ splitAtSlashes characters) : '/' ∉ segment := by
  induction characters generalizing segment with
  | nil =>
    rw [List.mem_singleton.mp isSegment]
    exact List.not_mem_nil
  | cons c characters ih =>
    by_cases isSlash : c = '/'
    · subst isSlash
      rcases List.mem_cons.mp isSegment with rfl | isLater
      · exact List.not_mem_nil
      · exact ih isLater
    · obtain ⟨first, others, split⟩ := exists_splitAtSlashes characters
      rw [splitAtSlashes_cons isSlash split] at isSegment
      rw [split] at ih
      rcases List.mem_cons.mp isSegment with rfl | isLater
      · have isWhole := ih (.head _)
        simp [isWhole, Ne.symm isSlash]
      · exact ih (.tail _ isLater)

/-- Characters in front of which no slash stands belong to the first segment. -/
theorem splitAtSlashes_append {segment rest first : List Char} {others : List (List Char)}
    (isWhole : '/' ∉ segment) (split : splitAtSlashes rest = first :: others) :
    splitAtSlashes (segment ++ rest) = (segment ++ first) :: others := by
  induction segment with
  | nil => exact split
  | cons c segment ih =>
    rw [List.mem_cons, not_or] at isWhole
    exact splitAtSlashes_cons (Ne.symm isWhole.1) (ih isWhole.2)

/-- Segments without slashes are found again in what they are put together to. -/
theorem splitAtSlashes_of_flatMap {characters : List Char} {segments : List (List Char)}
    (areWhole : ∀ segment ∈ segments, '/' ∉ segment)
    (joined : segments.flatMap ('/' :: ·) = '/' :: characters) :
    splitAtSlashes characters = segments := by
  induction segments generalizing characters with
  | nil => cases joined
  | cons segment others ih =>
    rw [List.flatMap_cons, List.cons_append, List.cons.injEq] at joined
    have isWhole := areWhole segment (.head _)
    rw [← joined.2]
    cases others with
    | nil =>
      have split : splitAtSlashes (segment ++ []) = [segment ++ []] :=
        splitAtSlashes_append isWhole rfl
      rw [List.append_nil] at split
      rw [List.flatMap_nil, List.append_nil]
      exact split
    | cons next others =>
      have later : splitAtSlashes (next ++ others.flatMap ('/' :: ·)) = next :: others :=
        ih (fun segment isLater => areWhole segment (.tail _ isLater)) rfl
      have split := splitAtSlashes_append isWhole
        (splitAtSlashes_slash (next ++ others.flatMap ('/' :: ·)))
      rw [later, List.append_nil] at split
      rw [List.flatMap_cons, List.cons_append]
      exact split

/-- The segments of a path are what stands between its slashes. -/
theorem segments?_eq_some_iff {path : String} {segments : List String} :
    segments? path = some segments ↔
      segments ≠ [] ∧ (∀ segment ∈ segments, '/' ∉ segment.toList) ∧
        path.toList = segments.flatMap fun segment => '/' :: segment.toList := by
  have joins (segments : List String) : (segments.flatMap fun segment => '/' :: segment.toList) =
      (segments.map String.toList).flatMap ('/' :: ·) := by
    rw [List.flatMap_map]
  rw [joins]
  refine ⟨fun splits => ?_, fun ⟨nonempty, areWhole, joined⟩ => ?_⟩
  · unfold segments? at splits
    split at splits
    next rest isPath =>
      obtain rfl : (splitAtSlashes rest).map String.ofList = segments := Option.some.inj splits
      have lists : ((splitAtSlashes rest).map String.ofList).map String.toList =
          splitAtSlashes rest := by
        simp [Function.comp_def]
      rw [lists, isPath, flatMap_splitAtSlashes]
      refine ⟨fun empty => ?_, fun segment isSegment => ?_, rfl⟩
      · obtain ⟨first, others, split⟩ := exists_splitAtSlashes rest
        rw [split] at empty
        cases empty
      · obtain ⟨characters, isSplit, rfl⟩ := List.mem_map.mp isSegment
        rw [String.toList_ofList]
        exact not_mem_of_mem_splitAtSlashes isSplit
    next => cases splits
  · obtain ⟨first, others, rfl⟩ := List.exists_cons_of_ne_nil nonempty
    have areWhole' : ∀ segment ∈ (first :: others).map String.toList, '/' ∉ segment := by
      intro segment isSegment
      obtain ⟨text, isText, rfl⟩ := List.mem_map.mp isSegment
      exact areWhole text isText
    unfold segments?
    rw [joined]
    show some ((splitAtSlashes _).map String.ofList) = _
    rw [splitAtSlashes_of_flatMap areWhole' rfl]
    simp [Function.comp_def]

end Http

/-! ## Paths of operations -/

/-- The last segment of the path at which an operation is offered. -/
def Operation.resource : Operation → String
  | listKeys => "keys"
  | publicKey => "key"
  | sign => "sign"

/-- The path at which an operation is offered for the endpoint that a segment stands for. -/
def Operation.path (operation : Operation) (segment : String) : String :=
  "/v1/sig/" ++ segment ++ "/" ++ operation.resource

namespace Http

theorem segments?_eq_operation_iff {path segment : String} {operation : Operation} :
    segments? path = some ["v1", "sig", segment, operation.resource] ↔
      path = operation.path segment ∧ '/' ∉ segment.toList := by
  have resource_isWhole : '/' ∉ operation.resource.toList := by
    cases operation <;> decide
  have joined : (["v1", "sig", segment, operation.resource].flatMap fun segment =>
      '/' :: segment.toList) = (operation.path segment).toList := by
    simp [Operation.path]
  rw [segments?_eq_some_iff, joined, String.toList_inj]
  refine ⟨fun ⟨_, areWhole, isPath⟩ => ⟨isPath, areWhole segment (by simp)⟩,
    fun ⟨isPath, isWhole⟩ => ⟨List.cons_ne_nil _ _, fun other isOther => ?_, isPath⟩⟩
  simp only [List.mem_cons, List.not_mem_nil, or_false] at isOther
  rcases isOther with rfl | rfl | rfl | rfl
  · decide
  · decide
  · exact isWhole
  · exact resource_isWhole

theorem segments?_eq_healthcheck_iff {path : String} :
    segments? path = some ["healthcheck"] ↔ path = "/healthcheck" := by
  rw [segments?_eq_some_iff, ← String.toList_inj]
  refine ⟨fun ⟨_, _, isPath⟩ => isPath,
    fun isPath => ⟨List.cons_ne_nil _ _, ?_, isPath⟩⟩
  simp only [List.mem_singleton, forall_eq]
  decide

/-- An operation is what a path stands for just if it is the path of the operation. -/
theorem Route.ofPath?_eq_operation_iff {path segment : String} {operation : Operation} :
    Route.ofPath? path = some (.operation operation segment) ↔
      path = operation.path segment ∧ '/' ∉ segment.toList := by
  rw [← segments?_eq_operation_iff]
  unfold Route.ofPath?
  refine ⟨fun isRoute => ?_, fun splits => ?_⟩
  · split at isRoute
    next => cases isRoute
    next splits =>
      cases isRoute
      exact splits
    next splits =>
      cases isRoute
      exact splits
    next splits =>
      cases isRoute
      exact splits
    next => cases isRoute
  · rw [splits]
    cases operation with
    | listKeys | publicKey | sign => rfl

theorem Route.ofPath?_eq_healthcheck_iff {path : String} :
    Route.ofPath? path = some .healthcheck ↔ path = "/healthcheck" := by
  rw [← segments?_eq_healthcheck_iff]
  unfold Route.ofPath?
  refine ⟨fun isRoute => ?_, fun splits => ?_⟩
  · split at isRoute
    next splits => exact splits
    all_goals cases isRoute
  · rw [splits]
    rfl

end Http

end Signet
