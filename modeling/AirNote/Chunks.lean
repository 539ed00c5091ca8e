import AirNote.Event
import AirNote.Lib.Pieces

/-!
# Chunks

A long text is embedded in chunks. It is split into blocks at blank lines; a
block that fits joins the open chunk, one that does not is placed on its own,
cut where it is too long, and each chunk it is placed in begins with the end
of the chunk before it. A chunk that is packed from whole blocks begins with
its first block.

## Main results

* `finish_sized`, `finish_covers` — no chunk is too long and nothing is lost.
* `chain_finish` — when consecutive chunks overlap.
* `chunkText_contract` — the contract of the chunker, and where it fails.
-/

namespace AirNote.Chunks

open Lib.Pieces

/-! ## The chunker -/

/-- `CHUNK_BUDGET_CHARS`. -/
def chunkBudgetChars : Nat := 600

/-- `CHUNK_OVERLAP_CHARS`. -/
def chunkOverlapChars : Nat := 100

/-- `BLOCK_SEPARATOR`. -/
def blockSeparator : List Char := ['\n', '\n']

/-- `str::trim`. -/
def trim (part : List Char) : List Char :=
  ((part.dropWhile isWhitespace).reverse.dropWhile isWhitespace).reverse

/-- `split_into_blocks`. -/
def splitIntoBlocks (text : List Char) : List (List Char) :=
  (((splitOn ['\n', '\n'] 0 text).flatMap
      (splitOn ['\r', '\n', '\r', '\n'] 0)).map trim).filter
    fun part => !part.isEmpty

/-- The finished chunks, and the open one. -/
structure Packing where
  chunks : List (List Char)
  current : List Char
  deriving DecidableEq

/-- `flush`. -/
def flush (s : Packing) : Packing :=
  if s.current.isEmpty then s else ⟨s.chunks ++ [s.current], []⟩

/-- `overlap_tail`. -/
def overlapTail (chunks : List (List Char)) : List Char :=
  match chunks.getLast? with
  | some prev => prev.drop (prev.length - chunkOverlapChars)
  | none => []

theorem length_overlapTail_le (chunks : List (List Char)) :
    (overlapTail chunks).length ≤ chunkOverlapChars := by
  unfold overlapTail
  split
  · rw [List.length_drop]
    omega
  · exact Nat.zero_le _

/-- `emit_block_with_overlap`, from the position on. -/
def emitBlockWithOverlap (block : List Char) (chunks : List (List Char)) :
    List (List Char) :=
  if block = [] then chunks
  else
    let chunk := overlapTail chunks
    let room := chunkBudgetChars - chunk.length
    let take := min room block.length
    emitBlockWithOverlap (block.drop take)
      (chunks ++ [chunk ++ block.take take])
termination_by block.length
decreasing_by
  have hroom := length_overlapTail_le chunks
  have hpos := List.length_pos_iff.mpr ‹block ≠ []›
  rw [List.length_drop]
  unfold chunkOverlapChars at hroom
  unfold chunkBudgetChars
  omega

/-- A block fits whole into the room of the open chunk. -/
def Fits (current block : List Char) : Prop :=
  current.length + (if current.isEmpty then 0 else blockSeparator.length) +
    block.length ≤ chunkBudgetChars

instance (current block : List Char) : Decidable (Fits current block) :=
  inferInstanceAs (Decidable (_ ≤ _))

/-- The open chunk with a block joined. -/
def joinBlock (current block : List Char) : List Char :=
  (if current.isEmpty then [] else current ++ blockSeparator) ++ block

/-- The loop of `chunk_text`, for one block. -/
def packBlock (s : Packing) (block : List Char) : Packing :=
  if Fits s.current block then { s with current := joinBlock s.current block }
  else
    let s := flush s
    { s with chunks := emitBlockWithOverlap block s.chunks }

/-- The chunks once the last block is placed. -/
def finish (s : Packing) (blocks : List (List Char)) : List (List Char) :=
  (flush (blocks.foldl packBlock s)).chunks

/-- `chunk_text`. -/
def chunkText (text : String) : List String :=
  if (trim text.toList).isEmpty then []
  else if text.length ≤ chunkBudgetChars then [text]
  else
    (finish ⟨[], []⟩ (splitIntoBlocks text.toList)).map String.ofList

/-! ## The blocks of a text -/

/-- A part is what is trimmed of it, between blanks. -/
theorem exists_trim (part : List Char) : ∃ front back : List Char,
    front.all isWhitespace ∧ back.all isWhitespace ∧
      part = front ++ trim part ++ back := by
  refine ⟨part.takeWhile isWhitespace,
    ((part.dropWhile isWhitespace).reverse.takeWhile isWhitespace).reverse,
    List.all_takeWhile, by rw [List.all_reverse]; exact List.all_takeWhile,
    ?_⟩
  rw [trim, List.append_assoc, ← List.reverse_append,
    List.takeWhile_append_dropWhile, List.reverse_reverse,
    List.takeWhile_append_dropWhile]

theorem reads_trim (part : List Char) :
    Reads isWhitespace
      (if (trim part).isEmpty then [] else [trim part]) part := by
  obtain ⟨front, back, hfront, hback, hpart⟩ := exists_trim part
  split
  next hempty =>
    rw [List.isEmpty_iff.mp hempty, List.append_nil] at hpart
    rw [hpart]
    exact .nil (by rw [List.all_append, hfront, hback, Bool.and_self])
  · conv => rhs; rw [hpart]
    exact .cons hfront (.nil hback)

theorem splitIntoBlocks_eq (text : List Char) : splitIntoBlocks text =
    (splitOn ['\n', '\n'] 0 text).flatMap fun part =>
      (splitOn ['\r', '\n', '\r', '\n'] 0 part).flatMap fun part =>
        if (trim part).isEmpty then [] else [trim part] := by
  have hparts : ∀ parts : List (List Char),
      (parts.map trim).filter (fun part => !part.isEmpty) =
        parts.flatMap fun part =>
          if (trim part).isEmpty then [] else [trim part] := by
    intro parts
    induction parts with
    | nil => rfl
    | cons part parts ih =>
        rw [List.map_cons, List.filter_cons, ih, List.flatMap_cons]
        cases (trim part).isEmpty <;> rfl
  rw [splitIntoBlocks, hparts, List.flatMap_assoc]

/-- The text is its blocks in order, and blanks. -/
theorem reads_splitIntoBlocks (text : List Char) :
    Reads isWhitespace (splitIntoBlocks text) text := by
  rw [splitIntoBlocks_eq]
  refine reads_splitOn (by decide) (by decide) (fun part => ?_) text
  exact reads_splitOn (by decide) (by decide) reads_trim part

theorem ne_nil_of_mem_splitIntoBlocks {text block : List Char}
    (h : block ∈ splitIntoBlocks text) : block ≠ [] := by
  simpa using (List.mem_filter.mp h).2

/-! ## Placing a block -/

section Emit

@[simp] theorem emitBlockWithOverlap_nil (chunks : List (List Char)) :
    emitBlockWithOverlap [] chunks = chunks := by
  rw [emitBlockWithOverlap, if_pos rfl]

theorem emitBlockWithOverlap_of_ne {block : List Char} (h : block ≠ [])
    (chunks : List (List Char)) :
    emitBlockWithOverlap block chunks =
      emitBlockWithOverlap
        (block.drop (min (chunkBudgetChars - (overlapTail chunks).length)
          block.length))
        (chunks ++ [overlapTail chunks ++
          block.take (min (chunkBudgetChars - (overlapTail chunks).length)
            block.length)]) := by
  conv => lhs; rw [emitBlockWithOverlap, if_neg h]

variable (block : List Char) (chunks : List (List Char))

theorem emitBlockWithOverlap_sized
    (h : ∀ c ∈ chunks, c.length ≤ chunkBudgetChars) :
    ∀ c ∈ emitBlockWithOverlap block chunks,
      c.length ≤ chunkBudgetChars := by
  induction block, chunks using emitBlockWithOverlap.induct with
  | case1 chunks => simpa using h
  | case2 block chunks hne chunk room take ih =>
      rw [emitBlockWithOverlap_of_ne hne]
      refine ih fun c hc => ?_
      rcases List.mem_append.mp hc with hc | hc
      · exact h c hc
      · have hlead : chunk.length ≤ chunkOverlapChars :=
          length_overlapTail_le chunks
        rw [List.mem_singleton.mp hc, List.length_append, List.length_take]
        unfold chunkOverlapChars at hlead
        simp only [take, room, chunkBudgetChars]
        omega

/-- What is new in the chunks a block is placed in is the block. -/
theorem emitBlockWithOverlap_tiles : ∀ {news : List (List Char)},
    Tiles chunks news →
      ∃ more, Tiles (emitBlockWithOverlap block chunks) (news ++ more) ∧
        more.flatten = block := by
  induction block, chunks using emitBlockWithOverlap.induct with
  | case1 chunks =>
      intro news h
      exact ⟨[], by simpa using h, rfl⟩
  | case2 block chunks hne chunk room take =>
      rename_i ih
      intro news h
      have hlead : chunk <:+ chunks.getLast?.getD [] := by
        simp only [chunk, overlapTail]
        cases chunks.getLast? with
        | none => exact List.suffix_rfl
        | some prev => exact List.drop_suffix _ prev
      obtain ⟨more, hmore, hflat⟩ := ih (h.push hlead)
      refine ⟨block.take take :: more, ?_, ?_⟩
      · rw [emitBlockWithOverlap_of_ne hne]
        rwa [List.append_assoc] at hmore
      · rw [List.flatten_cons, hflat, List.take_append_drop]

/-- Pushed, a chunk overlaps where it begins with the end of the last. -/
theorem chain_push (c : List Char) :
    (chunks ++ [c]).IsChain (fun a b => a.rtake chunkOverlapChars <+: b) ↔
      chunks.IsChain (fun a b => a.rtake chunkOverlapChars <+: b) ∧
        overlapTail chunks <+: c := by
  rw [List.isChain_append]
  unfold overlapTail
  cases hlast : chunks.getLast? with
  | none => simp
  | some prev => simp [List.rtake]

theorem chain_emitBlockWithOverlap :
    (emitBlockWithOverlap block chunks).IsChain
        (fun a b => a.rtake chunkOverlapChars <+: b) ↔
      chunks.IsChain fun a b => a.rtake chunkOverlapChars <+: b := by
  induction block, chunks using emitBlockWithOverlap.induct with
  | case1 chunks => rw [emitBlockWithOverlap_nil]
  | case2 block chunks hne chunk room take ih =>
      rw [emitBlockWithOverlap_of_ne hne, ih, chain_push]
      exact and_iff_left (List.prefix_append _ _)

theorem overlapTail_push (c : List Char) :
    overlapTail (chunks ++ [c]) = c.rtake chunkOverlapChars := by
  simp [overlapTail, List.rtake]

theorem overlapTail_emitBlockWithOverlap :
    overlapTail (emitBlockWithOverlap block chunks) =
      (overlapTail chunks ++ block).rtake chunkOverlapChars := by
  induction block, chunks using emitBlockWithOverlap.induct with
  | case1 chunks =>
      rw [emitBlockWithOverlap_nil, List.append_nil, List.rtake, Nat.sub_eq_zero_of_le
        (length_overlapTail_le chunks), List.drop_zero]
  | case2 block chunks hne chunk room take ih =>
      rw [emitBlockWithOverlap_of_ne hne, ih, overlapTail_push, rtake_rtake_append, List.append_assoc,
        List.take_append_drop]

end Emit

/-! ## Packing blocks -/

theorem joinBlock_ne_nil {current block : List Char} (h : block ≠ []) :
    joinBlock current block ≠ [] := by
  simp [joinBlock, h]

theorem length_joinBlock (current block : List Char) :
    (joinBlock current block).length =
      current.length + (if current.isEmpty then 0
        else blockSeparator.length) + block.length := by
  cases current with
  | nil => simp [joinBlock]
  | cons c rest =>
      simp [joinBlock]
      omega

theorem flush_sized {s : Packing}
    (h : ∀ c ∈ s.chunks, c.length ≤ chunkBudgetChars)
    (hcurrent : s.current.length ≤ chunkBudgetChars) :
    ∀ c ∈ (flush s).chunks, c.length ≤ chunkBudgetChars := by
  unfold flush
  split
  · exact h
  · intro c hc
    rcases List.mem_append.mp hc with hc | hc
    · exact h c hc
    · exact List.mem_singleton.mp hc ▸ hcurrent

theorem flush_current (s : Packing) : (flush s).current = [] := by
  unfold flush
  split
  next h => exact List.isEmpty_iff.mp h
  · rfl

/-- No chunk is longer than the budget. -/
theorem finish_sized (s : Packing) (blocks : List (List Char))
    (h : ∀ c ∈ s.chunks, c.length ≤ chunkBudgetChars)
    (hcurrent : s.current.length ≤ chunkBudgetChars) :
    ∀ c ∈ finish s blocks, c.length ≤ chunkBudgetChars := by
  induction blocks generalizing s with
  | nil => exact flush_sized h hcurrent
  | cons block blocks ih =>
      show ∀ c ∈ finish (packBlock s block) blocks, _
      unfold packBlock
      split
      next hfits =>
        refine ih { s with current := joinBlock s.current block } h ?_
        rw [length_joinBlock]
        exact hfits
      · refine ih _ (emitBlockWithOverlap_sized block _
          (flush_sized h hcurrent)) ?_
        simp only [flush_current]
        exact Nat.zero_le _

/-- The blocks placed so far are read in what is new in the chunks, with the
open chunk behind. -/
def Holds (s : Packing) (blocks : List (List Char)) : Prop :=
  ∃ news, Tiles s.chunks news ∧
    Reads isWhitespace blocks (news.flatten ++ s.current)

theorem flush_holds {s : Packing} {blocks : List (List Char)}
    (h : Holds s blocks) : Holds (flush s) blocks := by
  unfold flush
  split
  · exact h
  · obtain ⟨news, htiles, hreads⟩ := h
    refine ⟨news ++ [s.current], htiles.push_new s.current, ?_⟩
    simpa using hreads

theorem packBlock_holds {s : Packing} {blocks : List (List Char)}
    (h : Holds s blocks) (block : List Char) :
    Holds (packBlock s block) (blocks ++ [block]) := by
  unfold packBlock
  split
  · obtain ⟨news, htiles, hreads⟩ := h
    refine ⟨news, htiles, ?_⟩
    simp only [joinBlock]
    split
    next hempty =>
      rw [List.isEmpty_iff.mp hempty, List.append_nil] at hreads
      exact hreads.append (.block block)
    · have hseam : Reads isWhitespace [block] (blockSeparator ++ block) :=
        (Reads.block block).blank_append (by decide)
      simpa using hreads.append hseam
  · obtain ⟨news, htiles, hreads⟩ := flush_holds h
    obtain ⟨more, hmore, hflat⟩ := emitBlockWithOverlap_tiles block _ htiles
    refine ⟨news ++ more, hmore, ?_⟩
    rw [flush_current, List.append_nil] at hreads
    simp only [flush_current, List.append_nil, List.flatten_append, hflat]
    exact hreads.append (.block block)

/-- The chunks cover the blocks: what is new in each, read in order, is the
blocks and blanks. -/
def Covers (chunks blocks : List (List Char)) : Prop :=
  ∃ news, Tiles chunks news ∧ Reads isWhitespace blocks news.flatten

theorem finish_covers {s : Packing} {placed : List (List Char)}
    (h : Holds s placed) (blocks : List (List Char)) :
    Covers (finish s blocks) (placed ++ blocks) := by
  induction blocks generalizing s placed with
  | nil =>
      obtain ⟨news, htiles, hreads⟩ := flush_holds h
      refine ⟨news, htiles, ?_⟩
      rw [flush_current, List.append_nil] at hreads
      rwa [List.append_nil]
  | cons block blocks ih =>
      have hstep := ih (packBlock_holds h block)
      rwa [List.append_assoc] at hstep

/-! ## Handing over -/

/-- The open chunk once no further block fits it. -/
def fill (current : List Char) : List (List Char) → List Char
  | [] => current
  | block :: rest =>
      if Fits current block then fill (joinBlock current block) rest
      else current

/-- The open chunk after some blocks. -/
def pending (current : List Char) (blocks : List (List Char)) : List Char :=
  blocks.foldl (fun current block =>
    if Fits current block then joinBlock current block else []) current

/-- What is packed from the first of some blocks on begins with the end of
what was placed before it, where that block fits a chunk. -/
def Continues (before : List Char) (blocks : List (List Char)) : Prop :=
  ∀ block rest, blocks = block :: rest →
    block.length ≤ chunkBudgetChars →
      before.rtake chunkOverlapChars <+: fill [] blocks

/-- Wherever a block did not fit the open chunk, what is packed next begins
with the end of the two. -/
def Handovers (current : List Char) (blocks : List (List Char)) : Prop :=
  ∀ pre hard post, blocks = pre ++ hard :: post →
    ¬ Fits (pending current pre) hard →
      Continues (pending current pre ++ hard) post

theorem handovers_cons_fits {current block : List Char}
    {rest : List (List Char)} (h : Fits current block) :
    Handovers current (block :: rest) ↔
      Handovers (joinBlock current block) rest := by
  have hpending : ∀ pre, pending current (block :: pre) =
      pending (joinBlock current block) pre := fun pre => by
    rw [pending, List.foldl_cons, if_pos h, pending]
  constructor
  · intro hall pre hard post heq hfit
    have hcut := hall (block :: pre) hard post (by rw [heq]; rfl)
    rw [hpending] at hcut
    exact hcut hfit
  · intro hall pre hard post heq hfit
    cases pre with
    | nil =>
        simp only [List.nil_append, List.cons.injEq] at heq
        exact absurd (heq.1 ▸ h) hfit
    | cons first pre =>
        simp only [List.cons_append, List.cons.injEq] at heq
        obtain ⟨rfl, heq⟩ := heq
        rw [hpending] at hfit ⊢
        exact hall pre hard post heq hfit

theorem handovers_cons_hard {current block : List Char}
    {rest : List (List Char)} (h : ¬ Fits current block) :
    Handovers current (block :: rest) ↔
      Continues (current ++ block) rest ∧ Handovers [] rest := by
  have hpending : ∀ pre, pending current (block :: pre) = pending [] pre :=
    fun pre => by rw [pending, List.foldl_cons, if_neg h, pending]
  constructor
  · intro hall
    refine ⟨hall [] block rest rfl h, fun pre hard post heq hfit => ?_⟩
    have hcut := hall (block :: pre) hard post (by rw [heq]; rfl)
    rw [hpending] at hcut
    exact hcut hfit
  · rintro ⟨hfirst, hall⟩ pre hard post heq hfit
    cases pre with
    | nil =>
        simp only [List.nil_append, List.cons.injEq] at heq
        obtain ⟨rfl, rfl⟩ := heq
        exact hfirst
    | cons first pre =>
        simp only [List.cons_append, List.cons.injEq] at heq
        obtain ⟨rfl, heq⟩ := heq
        rw [hpending] at hfit ⊢
        exact hall pre hard post heq hfit

/-- Consecutive chunks overlap. -/
def Overlapping (chunks : List (List Char)) : Prop :=
  chunks.IsChain fun a b => a.rtake chunkOverlapChars <+: b

theorem overlapping_flush (s : Packing) :
    Overlapping (flush s).chunks ↔ Overlapping s.chunks ∧
      (s.current ≠ [] → overlapTail s.chunks <+: s.current) := by
  unfold flush
  split
  next h => simp [List.isEmpty_iff.mp h]
  next h =>
    rw [Overlapping, chain_push, Overlapping]
    simp [List.isEmpty_iff.not.mp h]

/-- After a block that did not fit the next chunk is to begin with the end of
the open chunk and the block. -/
theorem overlapTail_hard {s : Packing} {block : List Char}
    (h : ¬ Fits s.current block) :
    overlapTail (emitBlockWithOverlap block (flush s).chunks) =
      (s.current ++ block).rtake chunkOverlapChars := by
  rw [overlapTail_emitBlockWithOverlap]
  unfold flush
  split
  next hempty =>
    have hnil := List.isEmpty_iff.mp hempty
    have hlong : chunkOverlapChars ≤ block.length := by
      unfold Fits chunkBudgetChars at h
      unfold chunkOverlapChars
      simp [hnil] at h
      omega
    rw [hnil, List.nil_append, List.rtake, List.rtake, List.length_append,
      Nat.add_sub_assoc hlong, List.drop_append, List.drop_eq_nil_of_le
        (Nat.le_add_right _ _)]
    simp
  · rw [overlapTail_push, rtake_rtake_append]

/-- The chunk the open one becomes, or the next one, begins with the end of
the chunks; and what is packed later hands over. -/
theorem chain_finish {blocks : List (List Char)}
    (hne : ∀ block ∈ blocks, block ≠ []) (s : Packing) :
    Overlapping (finish s blocks) ↔ Overlapping s.chunks ∧
      ((s.current ≠ [] ∨ ∃ block rest, blocks = block :: rest ∧
          block.length ≤ chunkBudgetChars) →
        overlapTail s.chunks <+: fill s.current blocks) ∧
      Handovers s.current blocks := by
  induction blocks generalizing s with
  | nil =>
      have hnone : Handovers s.current [] := fun pre hard post heq => by
        simp at heq
      rw [finish, List.foldl_nil, overlapping_flush]
      simp [hnone, fill]
  | cons block rest ih =>
      have hblock := hne block List.mem_cons_self
      have ih := ih fun b hb => hne b (List.mem_cons_of_mem _ hb)
      show Overlapping (finish (packBlock s block) rest) ↔ _
      rw [packBlock]
      by_cases hfits : Fits s.current block
      · have hopen : s.current ≠ [] ∨ ∃ b r, block :: rest = b :: r ∧
            b.length ≤ chunkBudgetChars := by
          refine Or.inr ⟨block, rest, rfl, ?_⟩
          unfold Fits at hfits
          omega
        rw [if_pos hfits, ih, handovers_cons_fits hfits, fill, if_pos hfits]
        simp only [hopen, joinBlock_ne_nil hblock, ne_eq, not_false_eq_true,
          true_or, true_imp_iff]
      · have hopen : (s.current ≠ [] ∨ ∃ b r, block :: rest = b :: r ∧
            b.length ≤ chunkBudgetChars) ↔ s.current ≠ [] := by
          refine or_iff_left_of_imp ?_
          rintro ⟨b, r, heq, hlen⟩ hnil
          simp only [List.cons.injEq] at heq
          obtain ⟨rfl, rfl⟩ := heq
          exact hfits (by simpa [Fits, hnil] using hlen)
        rw [if_neg hfits, ih, handovers_cons_hard hfits, fill, if_neg hfits,
          hopen]
        simp only [flush_current, overlapTail_hard hfits]
        rw [Overlapping, chain_emitBlockWithOverlap, ← Overlapping,
          overlapping_flush]
        have hcontinues : ((([] : List Char) ≠ [] ∨ ∃ b r, rest = b :: r ∧
            b.length ≤ chunkBudgetChars) →
              (s.current ++ block).rtake chunkOverlapChars <+:
                fill [] rest) ↔ Continues (s.current ++ block) rest := by
          constructor
          · intro h b r heq hlen
            exact h (Or.inr ⟨b, r, heq, hlen⟩)
          · rintro h (hnil | ⟨b, r, heq, hlen⟩)
            · exact absurd rfl hnil
            · exact h b r heq hlen
        rw [hcontinues, and_assoc]

/-! ## The contract -/

/-- The chunks as characters. -/
def chunkChars (text : String) : List (List Char) :=
  (chunkText text).map String.toList

theorem chunkChars_long {text : String}
    (hlong : ¬ text.length ≤ chunkBudgetChars)
    (hblank : ¬ (trim text.toList).isEmpty) :
    chunkChars text = finish ⟨[], []⟩ (splitIntoBlocks text.toList) := by
  rw [chunkChars, chunkText, if_neg hblank, if_neg hlong, List.map_map]
  simp [Function.comp_def]

theorem trim_blank {part : List Char} (h : part.all isWhitespace) :
    trim part = [] := by
  have hnone : part.dropWhile isWhitespace = [] :=
    List.dropWhile_eq_nil_iff.mpr (List.all_eq_true.mp h)
  rw [trim, hnone]
  rfl

theorem splitIntoBlocks_blank {text : List Char}
    (h : (trim text).isEmpty) : splitIntoBlocks text = [] := by
  obtain ⟨front, back, hfront, hback, htext⟩ := exists_trim text
  have hall : text.all isWhitespace := by
    rw [htext, List.isEmpty_iff.mp h, List.append_nil, List.all_append,
      hfront, hback, Bool.and_self]
  refine List.eq_nil_iff_forall_not_mem.mpr fun block hblock => ?_
  have hblank := (reads_splitIntoBlocks text).of_blank hall block hblock
  -- a block of blanks only would have been trimmed away
  obtain ⟨part, -, rfl⟩ := List.mem_map.mp (List.mem_filter.mp hblock).1
  obtain ⟨front, back, hfront, hback, hpart⟩ := exists_trim part
  refine ne_nil_of_mem_splitIntoBlocks hblock (trim_blank ?_)
  rw [hpart, List.all_append, List.all_append, hfront, hblank, hback,
    Bool.and_self, Bool.and_self]

theorem covers_self (text : List Char) :
    Covers [text] (splitIntoBlocks text) := by
  have htiles : Tiles [text] [text] := Tiles.nil.push_new text
  exact ⟨[text], htiles, by simpa using reads_splitIntoBlocks text⟩

/-- **The contract of the chunker.** No chunk is longer than the budget; the
chunks cover every block of the text in order; and every chunk after the first
begins with the end of the chunk before it iff the text fits one chunk or,
wherever a block did not fit, what is packed after it begins with the end of
what was placed before. -/
theorem chunkText_contract (text : String) :
    (∀ c ∈ chunkText text, c.length ≤ chunkBudgetChars) ∧
      Covers (chunkChars text) (splitIntoBlocks text.toList) ∧
      (Overlapping (chunkChars text) ↔ text.length ≤ chunkBudgetChars ∨
        Handovers [] (splitIntoBlocks text.toList)) := by
  by_cases hblank : (trim text.toList).isEmpty
  · have hnone : chunkText text = [] := by rw [chunkText, if_pos hblank]
    have hblocks := splitIntoBlocks_blank hblank
    rw [chunkChars, hnone, hblocks]
    refine ⟨by simp, ⟨[], .nil, .nil (by simp)⟩, ?_⟩
    refine iff_of_true List.isChain_nil (Or.inr fun pre hard post heq => ?_)
    simp at heq
  by_cases hshort : text.length ≤ chunkBudgetChars
  · have hone : chunkText text = [text] := by
      rw [chunkText, if_neg hblank, if_pos hshort]
    rw [chunkChars, hone]
    exact ⟨by simpa using hshort, covers_self _,
      iff_of_true (List.isChain_singleton _) (Or.inl hshort)⟩
  rw [chunkChars_long hshort hblank]
  have hne : ∀ block ∈ splitIntoBlocks text.toList, block ≠ [] :=
    fun block h => ne_nil_of_mem_splitIntoBlocks h
  have hchain := chain_finish hne ⟨[], []⟩
  have hstart : Holds ⟨[], []⟩ [] := ⟨[], .nil, .nil (by simp)⟩
  refine ⟨?_, finish_covers hstart _, ?_⟩
  · rw [chunkText, if_neg hblank, if_neg hshort]
    intro c hc
    obtain ⟨l, hl, rfl⟩ := List.mem_map.mp hc
    rw [String.length_ofList]
    exact finish_sized ⟨[], []⟩ _ (by simp) (Nat.zero_le _) l hl
  · rw [hchain, or_iff_right hshort]
    have hfirst : overlapTail [] <+:
        fill [] (splitIntoBlocks text.toList) := List.nil_prefix
    simp [Overlapping, hfirst]

/-- The third of three paragraphs begins a chunk that shares nothing with the
chunk before it. -/
theorem chunkText_three_paragraphs :
    ¬ Overlapping (chunkChars (String.ofList (List.replicate 500 'a' ++
      '\n' :: '\n' :: (List.replicate 500 'b' ++
        '\n' :: '\n' :: List.replicate 500 'c')))) := by
  have hblocks : splitIntoBlocks (List.replicate 500 'a' ++
      '\n' :: '\n' :: (List.replicate 500 'b' ++
        '\n' :: '\n' :: List.replicate 500 'c')) =
      [List.replicate 500 'a', List.replicate 500 'b',
        List.replicate 500 'c'] := by
    decide +kernel
  rw [chunkChars_long (by rw [String.length_ofList]; decide +kernel)
    (by rw [String.toList_ofList]; decide +kernel), String.toList_ofList,
    hblocks, chain_finish (by decide +kernel)]
  rintro ⟨-, -, hhand⟩
  have hprefix := hhand [List.replicate 500 'a'] (List.replicate 500 'b')
    [List.replicate 500 'c'] rfl (by decide +kernel)
    (List.replicate 500 'c') [] rfl (by decide +kernel)
  revert hprefix
  decide +kernel

end AirNote.Chunks
