import Contiwatch.Lib.Reader

/-!
# Answers of Agents

`boundedAgentBody` of `internal/server/agent_http.go` reads at most 32 MiB of the body of an
answer. After that it looks whether there is another byte, and says so with an error. A body is read
until the first error, as `io.ReadAll` and the decoders do that read it.

## Main results

* `serves_boundedAgentBody` — what the bounded body serves of any body.
* `read_bounded` — an answer of at most 32 MiB is read whole, and a longer one ends in the error
  after exactly 32 MiB.
-/

namespace Contiwatch

open Reader

/-- The errors of a body; the end of the file is one. -/
inductive ReadError
  | eof
  | agentResponseTooLarge
  | other (message : String)
  deriving DecidableEq, Repr

/-- `agentResponseLimit`. -/
def agentResponseLimit : ℕ := 32 * 1024 * 1024

/-- `boundedAgentBody.Read`; the state is that of the body, and `remaining`. -/
def boundedAgentBody {σ : Type} (body : Reader σ UInt8 ReadError) :
    Reader (σ × ℕ) UInt8 ReadError
  | (s, remaining), len =>
      if len = 0 then (([], none), (s, remaining))
      else if remaining = 0 then
        match body s 1 with
        | ((data, err), s) =>
            if 0 < data.length then (([], some .agentResponseTooLarge), (s, remaining))
            else (([], err), (s, remaining))
      else
        match body s (if remaining < len then remaining else len) with
        | ((data, err), s) => ((data, err), (s, remaining - data.length))

section

variable {σ : Type} {body : Reader σ UInt8 ReadError} {final : ReadError}
  {Left : σ → List UInt8 → Prop} {s : σ} {left : List UInt8}

/-- The error in which a bounded body ends. -/
def boundedEnd (limit : ℕ) (left : List UInt8) (final : ReadError) : ReadError :=
  if limit < left.length then .agentResponseTooLarge else final

/-- What a bounded body that ends in `last` has left. -/
def BoundedLeft (Left : σ → List UInt8 → Prop) (final last : ReadError) (state : σ × ℕ)
    (left : List UInt8) : Prop :=
  ∃ all, Left state.1 all ∧ left = all.take state.2 ∧ boundedEnd state.2 all final = last

/-- What was read counts against the limit. -/
theorem boundedEnd_sub {limit : ℕ} {data rest : List UInt8} (h : data.length ≤ limit) :
    boundedEnd (limit - data.length) rest final = boundedEnd limit (data ++ rest) final := by
  rw [boundedEnd, boundedEnd, List.length_append]
  exact if_congr (by omega) rfl rfl

/-- **A bounded body** serves what is left of the body up to the limit. -/
theorem serves_boundedAgentBody (h : Serves body final Left) (last : ReadError) :
    Serves (boundedAgentBody body) last (BoundedLeft Left final last) where
  fits := by
    rintro ⟨s, remaining⟩ left ⟨all, hall, -⟩ len
    rw [boundedAgentBody]
    split_ifs with hlen hremaining hlong
    · exact Nat.zero_le len
    · dsimp only
      split_ifs <;> exact Nat.zero_le len
    · exact (h.fits hall remaining).trans hlong.le
    · exact h.fits hall len
  data := by
    rintro ⟨s, remaining⟩ left ⟨all, hall, rfl, rfl⟩ len hnone
    rw [boundedAgentBody] at hnone ⊢
    by_cases hlen : len = 0
    · rw [if_pos hlen]
      exact ⟨all.take remaining, rfl, all, hall, rfl, rfl⟩
    rw [if_neg hlen] at hnone ⊢
    by_cases hremaining : remaining = 0
    · -- the probe has found nothing yet
      subst hremaining
      rw [if_pos rfl] at hnone ⊢
      dsimp only at hnone ⊢
      split_ifs at hnone ⊢ with hprobe
      obtain ⟨rest, rfl, hrest⟩ := h.data hall 1 hnone
      have hnil := List.eq_nil_of_length_eq_zero (Nat.eq_zero_of_not_pos hprobe)
      rw [hnil]
      exact ⟨[], rfl, rest, hrest, rfl, rfl⟩
    · rw [if_neg hremaining] at hnone ⊢
      obtain ⟨rest, hrest, hleft⟩ := h.data hall _ hnone
      have hfits := h.fits hall (if remaining < len then remaining else len)
      have hle : (body s (if remaining < len then remaining else len)).1.1.length ≤ remaining :=
        hfits.trans (by split_ifs <;> omega)
      refine ⟨rest.take (remaining -
        (body s (if remaining < len then remaining else len)).1.1.length), ?_, rest, hleft, rfl, ?_⟩
      · rw [hrest, List.take_append, List.take_of_length_le hle]
      · exact (boundedEnd_sub hle).trans (congrArg (boundedEnd remaining · final) hrest.symm)
  last := by
    rintro ⟨s, remaining⟩ left ⟨all, hall, rfl, rfl⟩ len err hsome
    rw [boundedAgentBody] at hsome ⊢
    by_cases hlen : len = 0
    · rw [if_pos hlen] at hsome
      cases hsome
    rw [if_neg hlen] at hsome ⊢
    by_cases hremaining : remaining = 0
    · subst hremaining
      rw [if_pos rfl] at hsome ⊢
      dsimp only at hsome ⊢
      have hpre := h.data_prefix hall 1
      split_ifs at hsome ⊢ with hprobe
      · rw [boundedEnd, if_pos (hprobe.trans_le hpre.length_le)]
        exact ⟨rfl, (Option.some.inj hsome).symm⟩
      · obtain ⟨rfl, rfl⟩ := h.last hall 1 err hsome
        rw [boundedEnd, if_neg hprobe]
        exact ⟨rfl, rfl⟩
    · rw [if_neg hremaining] at hsome ⊢
      obtain ⟨hdata, rfl⟩ := h.last hall _ err hsome
      have hfits := h.fits hall (if remaining < len then remaining else len)
      have hle : all.length ≤ remaining := by
        rw [hdata]
        exact hfits.trans (by split_ifs <;> omega)
      refine ⟨(List.take_of_length_le hle).trans hdata, ?_⟩
      rw [boundedEnd, if_neg (Nat.not_lt.mpr hle)]

/-- A bounded body returns nothing only if the body does. -/
theorem acc_stalls_boundedAgentBody (h : Acc (Stalls body) s) (remaining : ℕ) :
    Acc (Stalls (boundedAgentBody body)) (s, remaining) := by
  induction h generalizing remaining with
  | intro s _ ih =>
  refine ⟨_, ?_⟩
  rintro ⟨s', remaining'⟩ ⟨len, hlen, hread⟩
  rw [boundedAgentBody, if_neg hlen.ne'] at hread
  by_cases hremaining : remaining = 0
  · rw [if_pos hremaining] at hread
    rcases hprobe : body s 1 with ⟨⟨data, err⟩, s''⟩
    rw [hprobe] at hread
    dsimp only at hread
    split_ifs at hread with hdata
    · cases hread
    obtain ⟨⟨-, rfl⟩, rfl, rfl⟩ := by simpa only [Prod.mk.injEq] using hread
    have hnil := List.eq_nil_of_length_eq_zero (Nat.eq_zero_of_not_pos hdata)
    exact ih s'' ⟨1, Nat.one_pos, by rw [hprobe, hnil]⟩ remaining
  · rw [if_neg hremaining] at hread
    rcases hdata : body s (if remaining < len then remaining else len) with ⟨⟨data, err⟩, s''⟩
    rw [hdata] at hread
    obtain ⟨⟨rfl, rfl⟩, rfl, rfl⟩ := by simpa only [Prod.mk.injEq] using hread
    exact ih s'' ⟨_, by split_ifs <;> omega, hdata⟩ _

/-- What has been read of an answer with the body `all`, and the error, if it has ended. -/
structure ReadBounded (all : List UInt8) (final : ReadError)
    (out : List UInt8 × Option ReadError) : Prop where
  delivered : out.1 <+: all
  short : out.1.length ≤ agentResponseLimit
  whole : all.length ≤ agentResponseLimit → ∀ err, out.2 = some err → out.1 = all ∧ err = final
  cut : agentResponseLimit < all.length → ∀ err, out.2 = some err →
    out.1.length = agentResponseLimit ∧ err = .agentResponseTooLarge

/-- Whatever a body is, also one without an end, no more than the limit is delivered of it. -/
theorem length_reads_boundedAgentBody (hfits : ∀ s len, (body s len).1.1.length ≤ len)
    (s : σ) (remaining : ℕ) (lens : List ℕ) :
    ((boundedAgentBody body).reads (s, remaining) lens).1.1.length ≤ remaining := by
  induction lens generalizing s remaining with
  | nil => exact Nat.zero_le _
  | cons len lens ih =>
      have hcall : (boundedAgentBody body (s, remaining) len).1.1.length +
          (boundedAgentBody body (s, remaining) len).2.2 ≤ remaining := by
        rw [boundedAgentBody]
        by_cases hlen : len = 0
        · rw [if_pos hlen]
          exact (Nat.zero_add _).le
        rw [if_neg hlen]
        by_cases hremaining : remaining = 0
        · rw [if_pos hremaining]
          dsimp only
          split_ifs <;> exact (Nat.zero_add _).le
        rw [if_neg hremaining]
        have hle := hfits s (if remaining < len then remaining else len)
        have hshort := hle.trans (by split_ifs <;> omega : _ ≤ remaining)
        exact (Nat.add_sub_cancel' hshort).le
      rw [Reader.reads]
      split
      · rename_i data err state hread
        rw [hread] at hcall
        exact (Nat.le_add_right ..).trans hcall
      · rename_i data state hread
        rw [hread] at hcall
        have hrest := ih state.1 state.2
        rw [List.length_append]
        exact (Nat.add_le_add_left hrest _).trans hcall

/-- **Answers are bounded.** Whatever a body returns at a time, and with whatever buffers it is
read: at most 32 MiB are delivered, also of a body without an end. Of a body with an end, a prefix
is delivered; a body of at most 32 MiB is delivered whole, with its own error; and a longer one ends
in `errAgentResponseTooLarge` after exactly 32 MiB. The end comes unless the body returns nothing
for ever. -/
theorem read_bounded :
    ((∀ s len, (body s len).1.1.length ≤ len) → ∀ s lens,
        ((boundedAgentBody body).reads (s, agentResponseLimit) lens).1.1.length ≤
          agentResponseLimit) ∧
      ∀ {final : ReadError} {Left : σ → List UInt8 → Prop} {s : σ} {left : List UInt8},
        Serves body final Left → Left s left →
        (∀ lens, ReadBounded left final
            ((boundedAgentBody body).reads (s, agentResponseLimit) lens).1) ∧
          ((∀ s left, Left s left → Acc (Stalls body) s) → ∀ len : ℕ → ℕ, (∀ i, 0 < len i) →
            ∃ n err, ((boundedAgentBody body).reads (s, agentResponseLimit)
              ((List.range n).map len)).1.2 = some err) := by
  refine ⟨fun hfits s lens => length_reads_boundedAgentBody hfits s _ lens,
    fun {final Left s left} h hs => ?_⟩
  have hserves := serves_boundedAgentBody h (boundedEnd agentResponseLimit left final)
  have hstart : BoundedLeft Left final (boundedEnd agentResponseLimit left final)
      (s, agentResponseLimit) (left.take agentResponseLimit) := ⟨left, hs, rfl, rfl⟩
  constructor
  · intro lens
    obtain ⟨hpre, hend⟩ := hserves.reads hstart lens
    refine ⟨hpre.trans (List.take_prefix _ _),
      hpre.length_le.trans (List.length_take_le _ _), fun hshort err herr => ?_,
      fun hlong err herr => ?_⟩
    · obtain ⟨hall, rfl⟩ := hend err herr
      exact ⟨hall.trans (List.take_of_length_le hshort), if_neg (Nat.not_lt.mpr hshort)⟩
    · obtain ⟨hall, rfl⟩ := hend err herr
      exact ⟨by rw [hall, List.length_take, Nat.min_eq_left hlong.le], if_pos hlong⟩
  · intro hstalls len hlen
    obtain ⟨n, hn⟩ := hserves.ends (fun state _ ⟨all, hall, _⟩ =>
      acc_stalls_boundedAgentBody (hstalls state.1 all hall) state.2) hstart len hlen
    exact ⟨n, _, hn⟩

end

/-- The zeros of a body that is one byte too long, read with buffers of 32 KiB. -/
theorem read_bounded_long : ∃ n out,
    ((boundedAgentBody (ofList .eof)).reads (List.replicate (agentResponseLimit + 1) 0,
      agentResponseLimit) ((List.range n).map fun _ => 32 * 1024)).1 =
        (out, some .agentResponseTooLarge) ∧
    out.length = agentResponseLimit ∧ out <+: List.replicate (agentResponseLimit + 1) 0 := by
  have hserves : Serves (ofList ReadError.eof) .eof fun state left : List UInt8 => state = left :=
    serves_ofList ReadError.eof
  obtain ⟨-, hread⟩ := @read_bounded _ (ofList ReadError.eof)
  obtain ⟨hbounded, hends⟩ := hread hserves
    (rfl : List.replicate (agentResponseLimit + 1) (0 : UInt8) = _)
  obtain ⟨n, err, hn⟩ := hends
    (fun s _ _ => ⟨s, fun s' h => absurd h (not_stalls_ofList ReadError.eof s s')⟩)
    (fun _ => 32 * 1024) fun _ => Nat.mul_pos (by decide) (by decide)
  have hall := hbounded ((List.range n).map fun _ => 32 * 1024)
  have hlong : agentResponseLimit < (List.replicate (agentResponseLimit + 1) (0 : UInt8)).length :=
    (List.length_replicate ..).symm ▸ Nat.lt_succ_self _
  obtain ⟨hlength, rfl⟩ := hall.cut hlong err hn
  exact ⟨n, _, Prod.ext rfl hn, hlength, hall.delivered⟩

end Contiwatch
