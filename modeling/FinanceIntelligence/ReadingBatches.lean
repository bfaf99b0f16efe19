import FinanceIntelligence.LlmFactExtraction
import FinanceIntelligence.NextFit

/-!
# The batches of a filing

`build_batches` (llm_fact_extraction_service.py) puts the chunks of a filing into
batches of at most 12000 characters and stops after twelve of them. The loop with its
running total and its two places that close a batch is next-fit, cut off after twelve
bins (`buildBatches_eq_take`); what holds of it is read off from next-fit.

* `buildBatches_bounded` — the batches are a **prefix of what can be read**, in order, and
  all of it unless there are twelve of them;
* `unread_long` — where something is left unread, more than 72000 characters **were sent**.
-/

namespace FinanceIntelligence

namespace LlmFactExtractionService

variable (R : ReaderText)

/-- The characters of a text that goes into a batch. -/
def excerptChars (excerpt : ℕ × List Char) : ℕ := excerpt.2.length

@[simp] theorem excerptChars_mk (position : ℕ) (content : List Char) :
    excerptChars (position, content) = content.length := rfl

/-- **What can be read**: position and text, without the blanks around it and cut to the size of
a batch, of every chunk that is not blank. -/
def readableExcerpts (contents : List (List Char)) : Batch :=
  ((contents.zipIdx.map fun (content, position) =>
    (position, strip R.chars.toCharClass content)).filter fun (_, content) => content ≠ []).map
      fun (position, content) => (position, content.take maxCharsPerBatch)

/-- The positions of the chunks from the `n`-th on that are not blank, with the text that is
read of each. -/
theorem mem_readableExcerpts {contents : List (List Char)} {position : ℕ} {text : List Char} :
    (position, text) ∈ readableExcerpts R contents ↔
      ∃ content, contents[position]? = some content ∧ strip R.chars.toCharClass content ≠ [] ∧
        text = (strip R.chars.toCharClass content).take maxCharsPerBatch := by
  simp only [readableExcerpts, List.mem_map, List.mem_filter, decide_eq_true_eq, Prod.mk.injEq,
    Prod.exists, List.mem_zipIdx_iff_getElem?]
  constructor
  · rintro ⟨_, _, ⟨⟨content, _, hcontent, rfl, rfl⟩, hne⟩, rfl, rfl⟩
    exact ⟨content, hcontent, hne, rfl⟩
  · rintro ⟨content, hcontent, hne, rfl⟩
    exact ⟨position, _, ⟨⟨content, position, hcontent, rfl, rfl⟩, hne⟩, rfl, rfl⟩

/-- The positions increase: no chunk is read twice. -/
theorem readableExcerpts_pairwise (contents : List (List Char)) :
    (readableExcerpts R contents).Pairwise fun x y => x.1 < y.1 := by
  have hpositions : (contents.zipIdx.map fun (content, position) =>
      (position, strip R.chars.toCharClass content)).Pairwise fun x y => x.1 < y.1 := by
    rw [List.pairwise_map]
    refine List.pairwise_iff_getElem.mpr fun i j hi hj hij => ?_
    simpa using hij
  exact (List.Pairwise.filter _ hpositions).map _ fun _ _ => id

/-- No text of a batch is longer than a batch. -/
theorem excerptChars_le {contents : List (List Char)} {x : ℕ × List Char}
    (hx : x ∈ readableExcerpts R contents) : excerptChars x ≤ maxCharsPerBatch := by
  obtain ⟨content, -, -, htext⟩ := (mem_readableExcerpts R).mp hx
  rw [excerptChars, htext]
  exact List.length_take_le _ _

/-- The loop goes on as next-fit does, up to twelve batches. -/
theorem fillBatches_eq_take {batches : List Batch} {current : Batch} {chunks : List (ℕ × List Char)}
    (hcount : batches.length < maxBatchesPerDocument) :
    fillBatches batches current (load excerptChars current) chunks =
      (batches ++ nextFit excerptChars maxCharsPerBatch current chunks).take
        maxBatchesPerDocument := by
  induction chunks generalizing batches current with
  | nil =>
    rw [fillBatches, nextFit]
    split
    · rename_i hlast
      rw [if_neg hlast.1, List.take_of_length_le (by simpa using Nat.succ_le_of_lt hcount)]
    · rename_i hlast
      rw [if_pos (not_not.mp fun hne => hlast ⟨hne, hcount⟩), List.append_nil,
        List.take_of_length_le (Nat.le_of_lt hcount)]
  | cons chunk chunks ih =>
    obtain ⟨position, content⟩ := chunk
    rw [fillBatches, nextFit, excerptChars_mk]
    split
    · split
      · -- the twelfth batch was closed
        rename_i hlast
        have hcount' : (batches ++ [current]).length = maxBatchesPerDocument := by
          rw [List.length_append, List.length_singleton]
          omega
        rw [List.append_cons batches current (nextFit ..), List.take_left' hcount']
      · rename_i hmore
        have hstep := @ih (batches ++ [current]) [(position, content)]
          (by rw [List.length_append, List.length_singleton]; omega)
        rw [load_cons, load_nil, Nat.add_zero, excerptChars_mk, ← List.append_cons] at hstep
        exact hstep
    · have hstep := @ih batches (current ++ [(position, content)]) hcount
      rw [load_append, load_cons, load_nil, Nat.add_zero, excerptChars_mk] at hstep
      exact hstep

/-- **The batches are next-fit**, cut off after twelve. -/
theorem buildBatches_eq_take (contents : List (List Char)) :
    buildBatches R contents =
      (nextFit excerptChars maxCharsPerBatch [] (readableExcerpts R contents)).take
        maxBatchesPerDocument :=
  @fillBatches_eq_take [] [] _ (by decide)

/-- **Batching is bounded and keeps the order**: at most twelve batches, none empty and none over
12000 characters, that hold a prefix of what can be read, no chunk twice; and all that can be
read where there are fewer than twelve. -/
theorem buildBatches_bounded (contents : List (List Char)) :
    (buildBatches R contents).length ≤ 12 ∧
      (∀ batch ∈ buildBatches R contents, batch ≠ [] ∧ load excerptChars batch ≤ 12000) ∧
      (buildBatches R contents).flatten <+: readableExcerpts R contents ∧
      (buildBatches R contents).flatten.Pairwise (fun x y => x.1 < y.1) ∧
      ((buildBatches R contents).length < 12 →
        (buildBatches R contents).flatten = readableExcerpts R contents) := by
  set bins := nextFit excerptChars maxCharsPerBatch [] (readableExcerpts R contents) with hbins
  have hflatten : bins.flatten = readableExcerpts R contents := nextFit_flatten [] _
  have hprefix : (bins.take 12).flatten <+: readableExcerpts R contents := by
    refine ⟨(bins.drop 12).flatten, ?_⟩
    rw [← List.flatten_append, List.take_append_drop, hflatten]
  have heq : buildBatches R contents = bins.take 12 := buildBatches_eq_take R contents
  rw [heq]
  refine ⟨List.length_take_le _ _, fun batch hbatch => ?_, hprefix,
    (readableExcerpts_pairwise R contents).sublist hprefix.sublist, fun hfew => ?_⟩
  · have hmem := List.mem_of_mem_take hbatch
    exact ⟨ne_nil_of_mem_nextFit hmem,
      nextFit_bounded (Nat.zero_le _) (fun _ => excerptChars_le R) hmem⟩
  · rw [List.take_of_length_le, hflatten]
    rw [List.length_take] at hfew
    omega

/-- **Nothing is left unread unless much is sent**: everything that can be read is in a batch, or
the batches hold more than 72000 characters. -/
theorem unread_long (contents : List (List Char)) :
    (buildBatches R contents).flatten = readableExcerpts R contents ∨
      72000 < load excerptChars (buildBatches R contents).flatten := by
  by_cases hlength : 12 ≤ (buildBatches R contents).length
  · right
    have hcrowded : Crowded excerptChars maxCharsPerBatch
        (nextFit excerptChars maxCharsPerBatch [] (readableExcerpts R contents)) :=
      nextFit_crowded [] _
    have hbatches : Crowded excerptChars maxCharsPerBatch (buildBatches R contents) := by
      rw [buildBatches_eq_take]
      exact hcrowded.take _
    exact lt_load_flatten_of_crowded (n := 5) hbatches hlength
  · left
    rw [buildBatches_eq_take, List.length_take] at hlength
    have htwelve : maxBatchesPerDocument = 12 := rfl
    rw [buildBatches_eq_take, List.take_of_length_le (by omega), nextFit_flatten, List.nil_append]

end LlmFactExtractionService

end FinanceIntelligence
