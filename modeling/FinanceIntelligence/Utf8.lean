import Mathlib.Data.List.Basic

/-!
# UTF-8 in chunks

A general layer: the bytes of a text, and the machine that decodes a stream of
bytes as they arrive. A byte either completes a character or leaves some of its
tail owed, so **how the stream is cut into chunks does not matter**
(`Utf8Decoder.feed_append`), and what was encoded is decoded (`feed_utf8Bytes`).
A part of the bytes of a text is decoded by itself exactly if it ends between two
characters (`decodeUtf8_take_iff`).

Bytes are natural numbers; the machine refuses those that no text has.
-/

namespace FinanceIntelligence

/-- The bytes of a character. -/
def utf8Char (c : Char) : List ℕ :=
  let n := c.toNat
  if n < 0x80 then [n]
  else if n < 0x800 then [0xC0 + n / 64, 0x80 + n % 64]
  else if n < 0x10000 then [0xE0 + n / 4096, 0x80 + n / 64 % 64, 0x80 + n % 64]
  else [0xF0 + n / 262144, 0x80 + n / 4096 % 64, 0x80 + n / 64 % 64, 0x80 + n % 64]

/-- The bytes of a text. -/
def utf8Bytes (text : List Char) : List ℕ := text.flatMap utf8Char

/-- Where the machine stands between two bytes. -/
inductive Utf8State where
  /-- between two characters -/
  | start
  /-- `more + 1` bytes are owed, the next of them from `low` to `high`, after a
  beginning with this value -/
  | owed (more value low high : ℕ)
deriving DecidableEq

/-- The state after the first byte of a character of several bytes. -/
def Utf8State.first (b : ℕ) : Option Utf8State :=
  if b < 0xC2 then none
  else if b < 0xE0 then some (.owed 0 (b - 0xC0) 0x80 0xBF)
  else if b < 0xF0 then
    some (.owed 1 (b - 0xE0) (if b = 0xE0 then 0xA0 else 0x80) (if b = 0xED then 0x9F else 0xBF))
  else if b < 0xF5 then
    some (.owed 2 (b - 0xF0) (if b = 0xF0 then 0x90 else 0x80) (if b = 0xF4 then 0x8F else 0xBF))
  else none

/-- One byte: the characters that it completes and the state after it, or a
`FormatException`. -/
def Utf8State.step : Utf8State → ℕ → Option (List Char × Utf8State)
  | .start, b => if b < 0x80 then some ([Char.ofNat b], .start) else (first b).map ([], ·)
  | .owed more value low high, b =>
    if low ≤ b ∧ b ≤ high then
      let value := value * 64 + (b - 0x80)
      match more with
      | 0 => some ([Char.ofNat value], .start)
      | more + 1 => some ([], .owed more value 0x80 0xBF)
    else none

/-- A decoder of a stream. A byte order mark at the very beginning is dropped. -/
structure Utf8Decoder where
  /-- a character has been decoded -/
  begun : Bool := false
  /-- where it stands -/
  state : Utf8State := .start
deriving DecidableEq

namespace Utf8Decoder

/-- One byte. -/
def step (d : Utf8Decoder) (b : ℕ) : Option (List Char × Utf8Decoder) :=
  (d.state.step b).map fun (out, state) =>
    (if d.begun then out else out.filter fun c => c.toNat != 0xFEFF,
      { begun := d.begun || !out.isEmpty, state })

/-- A chunk of bytes. -/
def feed (d : Utf8Decoder) : List ℕ → Option (List Char × Utf8Decoder)
  | [] => some ([], d)
  | b :: chunk => (d.step b).bind fun (out, d) =>
    (d.feed chunk).map fun (rest, d) => (out ++ rest, d)

/-- The text decoded from one chunk after the other. -/
def feedAll (d : Utf8Decoder) : List (List ℕ) → Option (List (List Char) × Utf8Decoder)
  | [] => some ([], d)
  | chunk :: chunks =>
    (d.feed chunk).bind fun (out, d) => (d.feedAll chunks).map fun (rest, d) => (out :: rest, d)

variable {d : Utf8Decoder}

/-- **Two chunks** are decoded as one. -/
theorem feed_append (x y : List ℕ) :
    d.feed (x ++ y) =
      (d.feed x).bind fun (out, d) => (d.feed y).map fun (rest, d) => (out ++ rest, d) := by
  induction x generalizing d with
  | nil => simp [feed]
  | cons b x ih =>
    cases hstep : d.step b with
    | none => simp [feed, hstep]
    | some p =>
      obtain ⟨out, d'⟩ := p
      have ih := ih (d := d')
      cases hx : d'.feed x with
      | none => simp [feed, hstep, hx, ih]
      | some q =>
        obtain ⟨out', d''⟩ := q
        cases hy : d''.feed y <;> simp [feed, hstep, hx, hy, ih]

/-- The text of all chunks is that of their bytes. -/
theorem feedAll_flatten (chunks : List (List ℕ)) :
    (d.feedAll chunks).map (fun (texts, d) => (texts.flatten, d)) = d.feed chunks.flatten := by
  induction chunks generalizing d with
  | nil => simp [feedAll, feed]
  | cons chunk chunks ih =>
    rw [feedAll, List.flatten_cons, feed_append]
    cases hchunk : d.feed chunk with
    | none => rfl
    | some p =>
      obtain ⟨out, d'⟩ := p
      have ih := ih (d := d')
      simp only [Option.bind_some, ← ih, Option.map_map]
      rfl

end Utf8Decoder

section RoundTrip

variable {c : Char}

/-- The first byte of a character of one byte. -/
theorem step_one (h : c.toNat < 0x80) :
    Utf8State.start.step c.toNat = some ([c], .start) := by
  rw [Utf8State.step, if_pos h, Char.ofNat_toNat]

/-- A decoder between two characters, all after the first. -/
def Utf8Decoder.running : Utf8Decoder := { begun := true }

/-- The first byte of a character leaves its tail owed. -/
theorem Utf8Decoder.feed_first {d : Utf8Decoder} (hstate : d.state = .start) {b : ℕ} {s : Utf8State}
    {tail : List ℕ} (hb : ¬ b < 0x80) (hfirst : Utf8State.first b = some s) :
    d.feed (b :: tail) = { d with state := s }.feed tail := by
  have hstep : d.step b = some ([], { d with state := s }) := by
    simp [step, hstate, Utf8State.step, if_neg hb, hfirst]
  rw [feed, hstep, Option.bind_some]
  cases h : ({ d with state := s } : Utf8Decoder).feed tail <;> simp [h]

/-- A byte of the tail. -/
theorem Utf8Decoder.feed_tail {d : Utf8Decoder} {more value low high b : ℕ} {tail : List ℕ}
    (hstate : d.state = .owed (more + 1) value low high) (hb : low ≤ b ∧ b ≤ high) :
    d.feed (b :: tail) =
      { d with state := .owed more (value * 64 + (b - 0x80)) 0x80 0xBF }.feed tail := by
  have hstep : d.step b =
      some ([], { d with state := .owed more (value * 64 + (b - 0x80)) 0x80 0xBF }) := by
    simp [step, hstate, Utf8State.step, hb]
  rw [feed, hstep, Option.bind_some]
  cases h : ({ d with state := .owed more (value * 64 + (b - 0x80)) 0x80 0xBF } :
    Utf8Decoder).feed tail <;> simp [h]

/-- The last byte of the tail. -/
theorem Utf8Decoder.feed_last {d : Utf8Decoder} {value low high b : ℕ}
    (hstate : d.state = .owed 0 value low high) (hb : low ≤ b ∧ b ≤ high)
    (hvalue : value * 64 + (b - 0x80) = c.toNat) (hbom : d.begun = true ∨ c.toNat ≠ 0xFEFF) :
    d.feed [b] = some ([c], .running) := by
  have hstep : d.step b = some ([c], .running) := by
    rcases hbom with hbegun | hbom
    · simp [step, hstate, Utf8State.step, hb, hvalue, hbegun, running]
    · cases hbegun : d.begun <;>
        simp [step, hstate, Utf8State.step, hb, hvalue, hbegun, running, hbom]
  rw [feed, hstep]
  rfl

/-- **A character** is decoded from its bytes. -/
theorem Utf8Decoder.feed_utf8Char {d : Utf8Decoder} (hstate : d.state = .start)
    (hbom : d.begun = true ∨ c.toNat ≠ 0xFEFF) :
    d.feed (utf8Char c) = some ([c], .running) := by
  have hvalid : c.toNat < 0xD800 ∨ 0xDFFF < c.toNat ∧ c.toNat < 0x110000 := c.valid
  generalize hn : c.toNat = n at *
  have htail : ∀ m, 0x80 ≤ 0x80 + m % 64 ∧ 0x80 + m % 64 ≤ 0xBF := by omega
  rw [utf8Char, hn]
  by_cases h₁ : n < 0x80
  · have hstep : d.step n = some ([c], .running) := by
      subst hn
      cases hbegun : d.begun with
      | true => simp [step, hstate, step_one h₁, hbegun, running]
      | false =>
        have hne : c.toNat ≠ 0xFEFF := by omega
        simp [step, hstate, step_one h₁, hbegun, running, hne]
    simp only [if_pos h₁]
    rw [feed, hstep]
    rfl
  · simp only [if_neg h₁]
    by_cases h₂ : n < 0x800
    · -- two bytes
      simp only [if_pos h₂]
      have hfirst : Utf8State.first (0xC0 + n / 64) = some (.owed 0 (n / 64) 0x80 0xBF) := by
        rw [Utf8State.first, if_neg (by omega), if_pos (by omega)]
        simp
      rw [feed_first hstate (by omega) hfirst]
      refine feed_last rfl (htail n) ?_ (hn ▸ hbom)
      omega
    · simp only [if_neg h₂]
      by_cases h₃ : n < 0x10000
      · -- three bytes, none of them a surrogate
        simp only [if_pos h₃]
        have hfirst : Utf8State.first (0xE0 + n / 4096) =
            some (.owed 1 (n / 4096) (if 0xE0 + n / 4096 = 0xE0 then 0xA0 else 0x80)
              (if 0xE0 + n / 4096 = 0xED then 0x9F else 0xBF)) := by
          rw [Utf8State.first, if_neg (by omega), if_neg (by omega), if_pos (by omega)]
          simp
        rw [feed_first hstate (by omega) hfirst, feed_tail rfl (by split <;> split <;> omega)]
        refine feed_last rfl (htail n) ?_ (hn ▸ hbom)
        omega
      · -- four bytes
        simp only [if_neg h₃]
        have hfirst : Utf8State.first (0xF0 + n / 262144) =
            some (.owed 2 (n / 262144) (if 0xF0 + n / 262144 = 0xF0 then 0x90 else 0x80)
              (if 0xF0 + n / 262144 = 0xF4 then 0x8F else 0xBF)) := by
          rw [Utf8State.first, if_neg (by omega), if_neg (by omega), if_neg (by omega),
            if_pos (by omega)]
          simp
        rw [feed_first hstate (by omega) hfirst, feed_tail rfl (by split <;> split <;> omega),
          feed_tail rfl (htail _)]
        refine feed_last rfl (htail n) ?_ (hn ▸ hbom)
        omega

/-- The rest of a text. -/
theorem Utf8Decoder.feed_running (text : List Char) :
    Utf8Decoder.running.feed (utf8Bytes text) = some (text, .running) := by
  induction text with
  | nil => rfl
  | cons c text ih =>
    rw [utf8Bytes, List.flatMap_cons, feed_append, feed_utf8Char rfl (.inl rfl), Option.bind_some]
    rw [utf8Bytes] at ih
    simp [ih]

/-- **The round trip** of a text that has no byte order mark at its beginning. -/
theorem Utf8Decoder.feed_utf8Bytes {text : List Char}
    (hbom : ∀ c ∈ text.head?, c.toNat ≠ 0xFEFF) :
    ∃ d, ({} : Utf8Decoder).feed (utf8Bytes text) = some (text, d) ∧ d.state = .start := by
  cases text with
  | nil => exact ⟨{}, rfl, rfl⟩
  | cons c text =>
    have hrest := feed_running text
    rw [utf8Bytes] at hrest
    refine ⟨.running, ?_, rfl⟩
    rw [utf8Bytes, List.flatMap_cons, feed_append, feed_utf8Char rfl (.inr (hbom c rfl)),
      Option.bind_some]
    simp [hrest]

end RoundTrip

/-- UTF-8 tells the text. -/
theorem utf8Bytes_injective {x y : List Char} (h : utf8Bytes x = utf8Bytes y) : x = y := by
  have hx := Utf8Decoder.feed_running x
  rw [h, Utf8Decoder.feed_running] at hx
  cases hx
  rfl

/-! ## Whole sequences -/

section Whole

variable {text : List Char}

/-- After the first of several bytes some are owed. -/
theorem Utf8State.ne_start_of_first {b : ℕ} {s : Utf8State} (h : first b = some s) :
    s ≠ .start := by
  rintro rfl
  rw [first] at h
  split_ifs at h <;> cases h

/-- A step completes a character exactly if it ends between two of them. -/
theorem Utf8State.start_iff_of_step {s s' : Utf8State} {b : ℕ} {out : List Char}
    (h : s.step b = some (out, s')) : s' = .start ↔ out ≠ [] := by
  cases s with
  | start =>
    rw [step] at h
    split at h
    · cases h
      simp
    · obtain ⟨s, hfirst, heq⟩ := Option.map_eq_some_iff.mp h
      obtain ⟨rfl, rfl⟩ := Prod.mk.inj heq
      simp [ne_start_of_first hfirst]
  | owed more value low high =>
    rw [step] at h
    split at h
    · cases more with
      | zero =>
        cases h
        simp
      | succ more =>
        cases h
        simp
    · cases h

namespace Utf8Decoder

theorem step_running {d d' : Utf8Decoder} {b : ℕ} {out : List Char} (hd : d.begun = true)
    (h : d.step b = some (out, d')) : d'.begun = true ∧ (d'.state = .start ↔ out ≠ []) := by
  obtain ⟨⟨out', s⟩, hstep, heq⟩ := Option.map_eq_some_iff.mp h
  rw [hd] at heq
  obtain ⟨rfl, rfl⟩ := Prod.mk.inj heq
  exact ⟨rfl, Utf8State.start_iff_of_step hstep⟩

theorem feed_begun {d d' : Utf8Decoder} {bytes : List ℕ} {out : List Char} (hd : d.begun = true)
    (h : d.feed bytes = some (out, d')) : d'.begun = true := by
  induction bytes generalizing d out with
  | nil =>
    cases h
    exact hd
  | cons b bytes ih =>
    obtain ⟨⟨out₁, d₁⟩, hstep, hrest⟩ := Option.bind_eq_some_iff.mp h
    obtain ⟨⟨out₂, d₂⟩, hfeed, heq⟩ := Option.map_eq_some_iff.mp hrest
    obtain ⟨-, rfl⟩ := Prod.mk.inj heq
    exact ih (step_running hd hstep).1 hfeed

/-- Bytes that complete no character leave something owed. -/
theorem state_ne_start_of_feed_nil {d d' : Utf8Decoder} {bytes : List ℕ} (hd : d.begun = true)
    (hbytes : bytes ≠ []) (h : d.feed bytes = some ([], d')) : d'.state ≠ .start := by
  induction bytes generalizing d with
  | nil => exact absurd rfl hbytes
  | cons b bytes ih =>
    obtain ⟨⟨out₁, d₁⟩, hstep, hrest⟩ := Option.bind_eq_some_iff.mp h
    obtain ⟨⟨out₂, d₂⟩, hfeed, heq⟩ := Option.map_eq_some_iff.mp hrest
    obtain ⟨hout, rfl⟩ := Prod.mk.inj heq
    obtain ⟨rfl, rfl⟩ := List.append_eq_nil_iff.mp hout
    obtain ⟨hbegun, hstate⟩ := step_running hd hstep
    rcases eq_or_ne bytes [] with rfl | hne
    · obtain ⟨-, rfl⟩ := Prod.mk.inj (Option.some.inj hfeed)
      exact fun hstart => hstate.mp hstart rfl
    · exact ih hbegun hne hfeed

end Utf8Decoder

/-- The strict decoding of a whole sequence of bytes; it keeps a byte order mark. -/
def decodeUtf8 (bytes : List ℕ) : Option (List Char) :=
  (Utf8Decoder.running.feed bytes).bind fun (text, d) =>
    if d.state = .start then some text else none

theorem decodeUtf8_utf8Bytes (text : List Char) : decodeUtf8 (utf8Bytes text) = some text := by
  rw [decodeUtf8, Utf8Decoder.feed_running]
  rfl

theorem feed_of_decodeUtf8 {bytes : List ℕ} (h : decodeUtf8 bytes = some text) :
    Utf8Decoder.running.feed bytes = some (text, .running) := by
  obtain ⟨⟨out, d⟩, hfeed, hif⟩ := Option.bind_eq_some_iff.mp h
  dsimp only at hif
  split at hif
  · rename_i hstate
    obtain rfl := Option.some.inj hif
    have hbegun : d.begun = true := Utf8Decoder.feed_begun rfl hfeed
    obtain ⟨begun, state⟩ := d
    obtain rfl : state = .start := hstate
    obtain rfl : begun = true := hbegun
    exact hfeed
  · cases hif

theorem utf8Bytes_append (x y : List Char) : utf8Bytes (x ++ y) = utf8Bytes x ++ utf8Bytes y :=
  List.flatMap_append

/-- Two beginnings of one sequence that are decoded to the same text are the same. -/
theorem eq_of_feed_eq {x y : List ℕ} (hbegins : x <+: y)
    (hx : Utf8Decoder.running.feed x = some (text, .running))
    (hy : Utf8Decoder.running.feed y = some (text, .running)) : x = y := by
  obtain ⟨rest, rfl⟩ := hbegins
  rw [Utf8Decoder.feed_append, hx, Option.bind_some] at hy
  obtain ⟨⟨out, d⟩, hfeed, heq⟩ := Option.map_eq_some_iff.mp hy
  obtain ⟨hout, hd⟩ := Prod.mk.inj heq
  obtain rfl : out = [] := List.self_eq_append_right.mp hout.symm
  obtain rfl : d = .running := hd
  by_contra hne
  have hrest : rest ≠ [] := fun hnil => hne (by rw [hnil, List.append_nil])
  exact Utf8Decoder.state_ne_start_of_feed_nil rfl hrest hfeed rfl

/-- The bytes of a text begin with those of another exactly if it begins with the other. -/
theorem utf8Bytes_prefix_iff {x y : List Char} : utf8Bytes x <+: utf8Bytes y ↔ x <+: y := by
  constructor
  · rintro ⟨rest, hrest⟩
    have hy := Utf8Decoder.feed_running y
    rw [← hrest, Utf8Decoder.feed_append, Utf8Decoder.feed_running, Option.bind_some] at hy
    obtain ⟨⟨out, d⟩, -, heq⟩ := Option.map_eq_some_iff.mp hy
    exact ⟨out, (Prod.mk.inj heq).1⟩
  · rintro ⟨rest, rfl⟩
    exact ⟨utf8Bytes rest, (utf8Bytes_append x rest).symm⟩

/-- The first `n` bytes of a text are those of a beginning of it. -/
def EndsBetween (n : ℕ) (text : List Char) : Prop :=
  ∃ before, before <+: text ∧ utf8Bytes before = (utf8Bytes text).take n

/-- **A beginning** of the bytes of a text is decoded exactly if it ends between two characters. -/
theorem decodeUtf8_take_iff (n : ℕ) (text : List Char) :
    (decodeUtf8 ((utf8Bytes text).take n)).isSome = true ↔ EndsBetween n text := by
  constructor
  · intro h
    obtain ⟨before, hbefore⟩ := Option.isSome_iff_exists.mp h
    have hfeed := feed_of_decodeUtf8 hbefore
    have hall := Utf8Decoder.feed_running text
    rw [← List.take_append_drop n (utf8Bytes text), Utf8Decoder.feed_append, hfeed,
      Option.bind_some] at hall
    obtain ⟨⟨rest, d⟩, -, heq⟩ := Option.map_eq_some_iff.mp hall
    have hprefix : before <+: text := ⟨rest, (Prod.mk.inj heq).1⟩
    refine ⟨before, hprefix, ?_⟩
    -- both are beginnings of the same bytes, and are decoded to the same text
    rcases List.prefix_or_prefix_of_prefix (utf8Bytes_prefix_iff.mpr hprefix)
        (List.take_prefix n (utf8Bytes text)) with hle | hle
    · exact eq_of_feed_eq hle (Utf8Decoder.feed_running before) hfeed
    · exact (eq_of_feed_eq hle hfeed (Utf8Decoder.feed_running before)).symm
  · rintro ⟨before, -, hbytes⟩
    rw [← hbytes, decodeUtf8_utf8Bytes]
    rfl

end Whole

end FinanceIntelligence
