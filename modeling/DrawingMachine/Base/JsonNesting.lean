import DrawingMachine.Base.JsonParser

/-!
# The containers a parser has open

The parser reads bytes as well as characters: a byte beyond ASCII stands between quotes or not at
all. As long as it has not rejected them, the scan for the depth counts the containers it has
open. So a limit for the scan is a limit for the parser, and a JSON text is within the limit
exactly when its value is.
-/

universe u

namespace JsonParser

open JsonText PyJson

/-! ### Bytes -/

theorem toNat_ofUInt8 (b : UInt8) : (Char.ofUInt8 b).toNat = b.toNat := by
  change b.toUInt32.toNat = b.toNat
  apply UInt8.toNat_toUInt32

/-- A byte is read as an ASCII character exactly when it is the byte of the character. -/
theorem ofUInt8_eq_iff {b : UInt8} {c : Char} (hc : c.toNat < 128) :
  Char.ofUInt8 b = c ↔ b = UInt8.ofNat c.toNat
  := by
  rw [← Char.toNat_inj, toNat_ofUInt8, ← UInt8.toNat_inj, UInt8.toNat_ofNat']
  omega

/-- A character beyond ASCII is not one of the characters of the grammar. -/
theorem notMem_of_wide {c : Char} (hc : 128 ≤ c.toNat) {t : Text} (h : ∀ d ∈ t, d.toNat < 128) :
  c ∉ t
  := by
  intro hmem
  have := h c hmem
  omega

theorem beginValue_wide {c : Char} (hc : 128 ≤ c.toNat) (cs : List Container) :
  beginValue cs c = none
  := by
  have hnot : c ∉ '"' :: '{' :: '[' :: '-' :: '0' :: 'n' :: 't' :: 'f' :: digits :=
    notMem_of_wide hc (by decide)
  simp only [List.mem_cons, not_or] at hnot
  simp [beginValue, hnot]

theorem endValue_wide {c : Char} (hc : 128 ≤ c.toNat) (cs : List Container) :
  endValue cs c = none
  := by
  have hnot : c ∉ ',' :: ']' :: '}' :: whiteSpace := notMem_of_wide hc (by decide)
  simp only [List.mem_cons, not_or] at hnot
  cases cs with
  | nil => simp [endValue, hnot]
  | cons container cs => cases container <;> simp [endValue, hnot]

theorem InNumber.next_wide {c : Char} (hc : 128 ≤ c.toNat) (place : InNumber) :
  place.next c = none
  := by
  have hnot : c ∉ '.' :: 'e' :: 'E' :: '+' :: '-' :: '0' :: digits := notMem_of_wide hc (by decide)
  simp only [List.mem_cons, not_or] at hnot
  cases place <;> simp [next, hnot]

/-- The parser reads letters, and it expects an item or a key in a container. -/
def State.Valid (s : State) : Prop :=
  match s.mode with
  | .literal rest => Neutral rest ∧ ∀ c ∈ rest, c.toNat < 128
  | .firstItem | .firstKey => s.containers ≠ []
  | _ => True

/-- A character beyond ASCII stands between quotes, and does not change what is read, or it does
not stand there. -/
theorem step_wide {c : Char} (hc : 128 ≤ c.toNat) {s : State} (hs : s.Valid) :
  step s c = match s.mode with
    | .string _ .plain => some s
    | _ => none
  := by
  have hspace : c ∉ whiteSpace := notMem_of_wide hc (by decide)
  have htoken : c ∉ ['"', '\\', ']', '}', ':', 'u'] := notMem_of_wide hc (by decide)
  simp only [List.mem_cons, List.not_mem_nil, or_false, not_or] at htoken
  obtain ⟨mode, cs⟩ := s
  cases mode with
  | value => simp [step, hspace, beginValue_wide hc]
  | firstItem => simp [step, hspace, htoken, beginValue_wide hc]
  | firstKey => simp [step, hspace, htoken]
  | key => simp [step, hspace, htoken]
  | colon => simp [step, hspace, htoken]
  | after => simp [step, endValue_wide hc]
  | string isKey place =>
      have hhex : c ∉ hexDigits := notMem_of_wide hc (by decide)
      have hescapes : c ∉ escapes := notMem_of_wide hc (by decide)
      have hlow : ¬ c < ' ' := by
        intro hlt
        have hlt' : c.toNat < 32 := hlt
        omega
      cases place with
      | plain => simp [step, nextInString, htoken, hlow]
      | escape => simp [step, nextInString, htoken, hescapes]
      | code n => cases n <;> simp [step, nextInString, hhex]
  | literal rest =>
      cases rest with
      | nil => simp [step, endValue_wide hc]
      | cons d rest =>
          have hd : c ≠ d := by
            rintro rfl
            have := hs.2 c List.mem_cons_self
            omega
          simp [step, hd]
  | number place => simp [step, InNumber.next_wide hc, endValue_wide hc]

/-! ### Valid states -/

theorem valid_of_beginValue {cs : List Container} {c : Char} {s : State}
    (h : beginValue cs c = some s) :
  s.Valid
  := by
  unfold beginValue at h
  split_ifs at h <;> cases h <;> simp [State.Valid] <;> decide

theorem valid_of_endValue {cs : List Container} {c : Char} {s : State}
    (h : endValue cs c = some s) :
  s.Valid
  := by
  unfold endValue at h
  split at h
  · cases h
    trivial
  · split at h
    · cases h
    · split_ifs at h <;> cases h <;> trivial
    · split_ifs at h <;> cases h <;> trivial

/-- Every step leads to a valid state. -/
theorem State.Valid.step {s s' : State} (hs : s.Valid) {c : Char}
    (h : JsonParser.step s c = some s') :
  s'.Valid
  := by
  obtain ⟨mode, cs⟩ := s
  unfold JsonParser.step at h
  cases mode with
  | value =>
      dsimp only at h
      split_ifs at h
      · cases h
        exact hs
      · exact valid_of_beginValue h
  | firstItem =>
      dsimp only at h
      split_ifs at h
      · cases h
        exact hs
      · cases h
        trivial
      · exact valid_of_beginValue h
  | firstKey =>
      dsimp only at h
      split_ifs at h <;> cases h
      · exact hs
      · trivial
      · trivial
  | key =>
      dsimp only at h
      split_ifs at h <;> cases h
      · exact hs
      · trivial
  | colon =>
      dsimp only at h
      split_ifs at h <;> cases h
      · exact hs
      · trivial
  | after => exact valid_of_endValue h
  | string isKey place =>
      dsimp only at h
      split at h
      · cases h
        trivial
      · split at h
        · cases isKey <;> split_ifs at h <;> cases h <;> trivial
        · cases h
  | literal rest =>
      dsimp only at h
      split at h
      · exact valid_of_endValue h
      · split_ifs at h
        cases h
        exact ⟨fun c hc => hs.1 c (List.mem_cons_of_mem _ hc),
          fun c hc => hs.2 c (List.mem_cons_of_mem _ hc)⟩
  | number place =>
      dsimp only at h
      split at h
      · cases h
        trivial
      · split_ifs at h
        exact valid_of_endValue h

/-! ### The scan and the parser -/

/-- What the scan knows of a state. -/
def State.scan (s : State) : Scan :=
  match s.mode with
  | .string _ place => scanAt s.containers.length place
  | _ => .outside s.containers.length

section Scan

variable {limit : ℕ} {d : ℤ} {b : UInt8}

/-- The byte of another character. -/
theorem ne_of_ofUInt8_ne {c : Char} (hc : c.toNat < 128) (h : Char.ofUInt8 b ≠ c) :
  b ≠ UInt8.ofNat c.toNat := fun heq => h ((ofUInt8_eq_iff hc).mpr heq)

/-- A byte that is no quote and no bracket is passed over. -/
theorem scan_neutral (h : Char.ofUInt8 b ∉ ['"', '{', '}', '[', ']']) :
  Scan.step limit (.outside d) b = some (.outside d)
  := by
  simp only [List.mem_cons, List.not_mem_nil, or_false, not_or] at h
  obtain ⟨hquote, hbrace, hbrace', hbracket, hbracket'⟩ := h
  have h₁ : b ≠ 34 := ne_of_ofUInt8_ne (by decide) hquote
  have h₂ : b ≠ 123 := ne_of_ofUInt8_ne (by decide) hbrace
  have h₃ : b ≠ 125 := ne_of_ofUInt8_ne (by decide) hbrace'
  have h₄ : b ≠ 91 := ne_of_ofUInt8_ne (by decide) hbracket
  have h₅ : b ≠ 93 := ne_of_ofUInt8_ne (by decide) hbracket'
  simp [Scan.step, h₁, h₂, h₃, h₄, h₅]

/-- A quote begins a string. -/
theorem scan_quote (h : Char.ofUInt8 b = '"') :
  Scan.step limit (.outside d) b = some (.inside d)
  := by
  obtain rfl : b = 34 := (ofUInt8_eq_iff (by decide)).mp h
  rfl

/-- A bracket that opens a container is counted. -/
theorem scan_open {n : ℕ} (h : Char.ofUInt8 b = '{' ∨ Char.ofUInt8 b = '[') :
  Scan.step limit (.outside n) b =
    if n + 1 ≤ limit then some (.outside (n + 1 : ℕ)) else none
  := by
  have hb : b = 123 ∨ b = 91 := by
    rcases h with h | h
    · exact .inl ((ofUInt8_eq_iff (by decide)).mp h)
    · exact .inr ((ofUInt8_eq_iff (by decide)).mp h)
  have hlimit : (n : ℤ) + 1 > limit ↔ ¬ n + 1 ≤ limit := by omega
  rcases hb with rfl | rfl <;> by_cases hle : n + 1 ≤ limit <;> simp [Scan.step, hlimit, hle]

/-- A bracket that closes a container is counted. -/
theorem scan_close {n : ℕ} (h : Char.ofUInt8 b = '}' ∨ Char.ofUInt8 b = ']') :
  Scan.step limit (.outside (n + 1 : ℕ)) b = some (.outside n)
  := by
  have hb : b = 125 ∨ b = 93 := by
    rcases h with h | h
    · exact .inl ((ofUInt8_eq_iff (by decide)).mp h)
    · exact .inr ((ofUInt8_eq_iff (by decide)).mp h)
  rcases hb with rfl | rfl <;> simp [Scan.step]

/-- A quote ends a string. -/
theorem scan_endQuote (h : Char.ofUInt8 b = '"') :
  Scan.step limit (.inside d) b = some (.outside d)
  := by
  obtain rfl : b = 34 := (ofUInt8_eq_iff (by decide)).mp h
  rfl

/-- A byte between quotes is passed over. -/
theorem scan_nextInString {place place' : InString}
    (h : nextInString place (Char.ofUInt8 b) = some place') :
  Scan.step limit (scanAt d place) b = some (scanAt d place')
  := by
  have hhex : ∀ c ∈ hexDigits, c ≠ '"' ∧ c ≠ '\\' := by decide
  have hplain : Char.ofUInt8 b ≠ '"' → Char.ofUInt8 b ≠ '\\' →
      Scan.step limit (.inside d) b = some (.inside d) := by
    intro hquote hescape
    have h₁ : b ≠ 34 := ne_of_ofUInt8_ne (by decide) hquote
    have h₂ : b ≠ 92 := ne_of_ofUInt8_ne (by decide) hescape
    simp [Scan.step, h₁, h₂]
  unfold nextInString at h
  split at h
  · split_ifs at h with hescape hlow
    · cases h
      obtain rfl : b = 92 := (ofUInt8_eq_iff (by decide)).mp hescape
      rfl
    · cases h
      exact hplain (not_or.mp hlow).2 hescape
  · split_ifs at h <;> cases h <;> rfl
  · split_ifs at h with hmem
    cases h
    exact hplain (hhex _ hmem).1 (hhex _ hmem).2
  · split_ifs at h with hmem
    cases h
    exact hplain (hhex _ hmem).1 (hhex _ hmem).2

/-- White space is passed over. -/
theorem scan_space (h : Char.ofUInt8 b ∈ whiteSpace) :
  Scan.step limit (.outside d) b = some (.outside d)
  := by
  have hall : ∀ c ∈ whiteSpace, c ∉ ['"', '{', '}', '[', ']'] := by decide
  exact scan_neutral (hall _ h)

end Scan

/-- The scan follows a step: it goes on in the next state, unless too many containers are open
there. -/
def Follows (limit : ℕ) (scan : Scan) (b : UInt8) (s : State) : Prop :=
  Scan.step limit scan b = if s.containers.length ≤ limit then some s.scan else none

section Follow

variable {limit : ℕ} {b : UInt8} {cs : List Container} {s : State}

/-- The scan follows the first character of a value. -/
theorem follows_beginValue (hlimit : cs.length ≤ limit)
    (h : beginValue cs (Char.ofUInt8 b) = some s) :
  Follows limit (.outside cs.length) b s
  := by
  have hdigit : ∀ c ∈ digits, c ∉ ['"', '{', '}', '[', ']'] := by decide
  unfold Follows
  unfold beginValue at h
  split_ifs at h with hquote hobject harray hminus hzero hd hn ht hf <;> cases h
  · rw [scan_quote hquote, if_pos hlimit]
    rfl
  · rw [scan_open (.inl hobject)]
    rfl
  · rw [scan_open (.inr harray)]
    rfl
  · rw [scan_neutral (by rw [hminus]; decide), if_pos hlimit]
    rfl
  · rw [scan_neutral (by rw [hzero]; decide), if_pos hlimit]
    rfl
  · rw [scan_neutral (hdigit _ hd), if_pos hlimit]
    rfl
  · rw [scan_neutral (by rw [hn]; decide), if_pos hlimit]
    rfl
  · rw [scan_neutral (by rw [ht]; decide), if_pos hlimit]
    rfl
  · rw [scan_neutral (by rw [hf]; decide), if_pos hlimit]
    rfl

/-- The scan follows what stands behind a value. -/
theorem follows_endValue (hlimit : cs.length ≤ limit)
    (h : endValue cs (Char.ofUInt8 b) = some s) :
  Follows limit (.outside cs.length) b s
  := by
  unfold Follows
  by_cases hspace : Char.ofUInt8 b ∈ whiteSpace
  · rw [endValue.eq_def, if_pos hspace] at h
    cases h
    rw [scan_space hspace, if_pos hlimit]
    rfl
  · cases cs with
    | nil => simp [endValue, hspace] at h
    | cons container cs =>
        have hlimit' : cs.length ≤ limit := by
          rw [List.length_cons] at hlimit
          omega
        have hcomma : ∀ h : Char.ofUInt8 b = ',',
            Scan.step limit (.outside (container :: cs).length) b
              = some (.outside (container :: cs).length) := by
          intro h
          exact scan_neutral (by rw [h]; decide)
        cases container with
        | array =>
            rw [endValue, if_neg hspace] at h
            split_ifs at h with hc hc <;> cases h
            · rw [hcomma hc, if_pos hlimit]
              rfl
            · rw [List.length_cons, scan_close (.inr hc), if_pos hlimit']
              rfl
        | object =>
            rw [endValue, if_neg hspace] at h
            split_ifs at h with hc hc <;> cases h
            · rw [hcomma hc, if_pos hlimit]
              rfl
            · rw [List.length_cons, scan_close (.inl hc), if_pos hlimit']
              rfl

/-- The scan follows white space. -/
theorem follows_space (hspace : Char.ofUInt8 b ∈ whiteSpace) (hlimit : s.containers.length ≤ limit)
    (hscan : s.scan = .outside s.containers.length) :
  Follows limit s.scan b s
  := by
  rw [Follows, if_pos hlimit, hscan]
  exact scan_space hspace

/-- The scan follows a bracket that closes the innermost container. -/
theorem follows_close (hbracket : Char.ofUInt8 b = '}' ∨ Char.ofUInt8 b = ']') (hne : cs ≠ [])
    (hlimit : cs.length ≤ limit) :
  Follows limit (.outside cs.length) b ⟨.after, cs.tail⟩
  := by
  obtain ⟨container, cs, rfl⟩ := List.exists_cons_of_ne_nil hne
  have hlimit' : cs.length ≤ limit := by
    rw [List.length_cons] at hlimit
    omega
  rw [Follows, List.length_cons, scan_close hbracket, List.tail_cons, if_pos hlimit']
  rfl

/-- The scan follows every step. -/
theorem follows_step {s' : State} (hs : s.Valid) (hlimit : s.containers.length ≤ limit)
    (h : step s (Char.ofUInt8 b) = some s') :
  Follows limit s.scan b s'
  := by
  obtain ⟨mode, cs⟩ := s
  unfold step at h
  cases mode with
  | value =>
      dsimp only at h
      split_ifs at h with hspace
      · cases h
        apply follows_space hspace hlimit rfl
      · apply follows_beginValue hlimit h
  | firstItem =>
      dsimp only at h
      split_ifs at h with hspace hclose
      · cases h
        apply follows_space hspace hlimit rfl
      · cases h
        apply follows_close (.inr hclose) hs hlimit
      · apply follows_beginValue hlimit h
  | firstKey =>
      dsimp only at h
      split_ifs at h with hspace hquote hclose <;> cases h
      · apply follows_space hspace hlimit rfl
      · exact (scan_quote hquote).trans (if_pos hlimit).symm
      · apply follows_close (.inl hclose) hs hlimit
  | key =>
      dsimp only at h
      split_ifs at h with hspace hquote <;> cases h
      · apply follows_space hspace hlimit rfl
      · exact (scan_quote hquote).trans (if_pos hlimit).symm
  | colon =>
      dsimp only at h
      split_ifs at h with hspace hcolon <;> cases h
      · apply follows_space hspace hlimit rfl
      · exact (scan_neutral (by rw [hcolon]; decide)).trans (if_pos hlimit).symm
  | after => apply follows_endValue hlimit h
  | string isKey place =>
      dsimp only at h
      split at h
      · next hnext =>
          cases h
          exact (scan_nextInString hnext).trans (if_pos hlimit).symm
      · split at h
        · split_ifs at h with hquote hkey
          · cases h
            exact (scan_endQuote hquote).trans (if_pos hlimit).symm
          · cases h
            exact (scan_endQuote hquote).trans (if_pos hlimit).symm
        · cases h
  | literal rest =>
      dsimp only at h
      split at h
      · apply follows_endValue hlimit h
      · next c rest =>
          split_ifs at h with hc
          cases h
          have hneutral := hs.1 c List.mem_cons_self
          exact (scan_neutral (by rwa [hc])).trans (if_pos hlimit).symm
  | number place =>
      dsimp only at h
      split at h
      · next hnext =>
          cases h
          have hneutral : Char.ofUInt8 b ∉ ['"', '{', '}', '[', ']'] := by
            intro hmem
            have hnone : ∀ c ∈ ['"', '{', '}', '[', ']'], place.next c = none := by
              cases place <;> decide
            rw [hnone _ hmem] at hnext
            cases hnext
          exact (scan_neutral hneutral).trans (if_pos hlimit).symm
      · split_ifs at h
        apply follows_endValue hlimit h

end Follow

/-! ### Bytes as a text -/

/-- Read bytes one after the other. -/
def runBytes (s : State) (bytes : List UInt8) : Option State := run s (bytes.map Char.ofUInt8)

/-- The parser accepts bytes. -/
def AcceptsBytes (bytes : List UInt8) : Prop :=
  ∃ s, runBytes start bytes = some s ∧ s.accepts = true

theorem runBytes_cons (s : State) (b : UInt8) (bytes : List UInt8) :
  runBytes s (b :: bytes) = (step s (Char.ofUInt8 b)).bind fun s' => runBytes s' bytes := rfl

/-- What the scan accepts has never more containers open than the limit. -/
theorem length_containers_le {limit : ℕ} {bytes : List UInt8} {s s' : State} (hs : s.Valid)
    (hlimit : s.containers.length ≤ limit)
    (hscan : Scan.run limit s.scan bytes ≠ none) (h : runBytes s bytes = some s') :
  s'.containers.length ≤ limit
  := by
  induction bytes generalizing s with
  | nil =>
      cases h
      exact hlimit
  | cons b bytes ih =>
      rw [runBytes_cons, Option.bind_eq_some_iff] at h
      obtain ⟨t, ht, h⟩ := h
      have hfollows := follows_step hs hlimit ht
      unfold Scan.run at hscan
      rw [List.foldlM_cons, hfollows] at hscan
      split at hscan
      · next hle => exact ih (hs.step ht) hle hscan h
      · exact absurd rfl hscan

/-- A scan that accepts bytes accepts the bytes before them. -/
theorem scan_ne_none_of_append {limit : ℕ} {scan : Scan} {front back : List UInt8}
    (h : Scan.run limit scan (front ++ back) ≠ none) :
  Scan.run limit scan front ≠ none
  := by
  intro hnone
  rw [Scan.run_append, hnone] at h
  exact h rfl

/-- Bytes beyond ASCII are read as a character beyond ASCII. -/
theorem runBytes_wide {s : State} (hs : s.Valid) {c : Char} (hc : 128 ≤ c.toNat)
    {bytes : List UInt8} (hbytes : ∀ b ∈ bytes, 128 ≤ b.toNat) (hne : bytes ≠ []) :
  runBytes s bytes = step s c
  := by
  obtain ⟨b, bytes, rfl⟩ := List.exists_cons_of_ne_nil hne
  have hstep : ∀ b : UInt8, 128 ≤ b.toNat → step s (Char.ofUInt8 b) = step s c := by
    intro b hb
    rw [← toNat_ofUInt8] at hb
    rw [step_wide hb hs, step_wide hc hs]
  rw [runBytes_cons, hstep b (hbytes b List.mem_cons_self)]
  cases h : step s c with
  | none => rfl
  | some s' =>
      -- a step that is possible leads back to the same place between quotes
      have hsame : s' = s := by
        rw [step_wide hc hs] at h
        split at h <;> cases h
        rfl
      subst hsame
      rw [Option.bind_some]
      have hrest : ∀ b ∈ bytes, 128 ≤ b.toNat := fun b hb =>
        hbytes b (List.mem_cons_of_mem _ hb)
      clear hbytes hne
      induction bytes with
      | nil => rfl
      | cons b' bytes ih =>
          rw [runBytes_cons, hstep b' (hrest b' List.mem_cons_self), h, Option.bind_some]
          exact ih fun b hb => hrest b (List.mem_cons_of_mem _ hb)

/-- The bytes of a text are read as the text. -/
theorem runBytes_encode {s : State} (hs : s.Valid) (t : Text) :
  runBytes s (Text.encode t) = run s t
  := by
  induction t generalizing s with
  | nil => rfl
  | cons c t ih =>
      have hchar : runBytes s (String.utf8EncodeChar c) = step s c := by
        by_cases hc : c.toNat < 128
        · have hbyte : Char.ofUInt8 (UInt8.ofNat c.toNat) = c := (ofUInt8_eq_iff hc).mpr rfl
          rw [utf8EncodeChar_ascii hc, runBytes_cons, hbyte]
          cases step s c <;> rfl
        · have hwide : 128 ≤ c.toNat := by omega
          apply runBytes_wide hs hwide
          · intro b hb
            exact le_of_mem_utf8EncodeChar hwide hb
          · apply List.ne_nil_of_length_pos
            rw [String.length_utf8EncodeChar]
            exact Char.utf8Size_pos c
      have happend : runBytes s (Text.encode (c :: t))
          = (runBytes s (String.utf8EncodeChar c)).bind fun s' => runBytes s' (Text.encode t) := by
        rw [Text.encode_cons, runBytes, List.map_append, run, List.foldlM_append]
        rfl
      rw [happend, hchar, run, List.foldlM_cons]
      cases h : step s c with
      | none => rfl
      | some s' => exact ih (hs.step h)

/-- The bytes of a text are accepted exactly when it is a JSON text. -/
theorem acceptsBytes_encode_iff {t : Text} :
  AcceptsBytes (Text.encode t) ↔ ∃ v, IsDocument t v
  := by
  rw [AcceptsBytes, runBytes_encode (s := start) trivial, ← accepts_iff]
  rfl

end JsonParser

/-! ### Values -/

/-- How the numbers and the strings of a JSON text are read: a number has no containers, and what
cannot be read has no value. -/
structure JsonReading (φ : Type u) where
  number : Text → Option (PyJson φ)
  string : Text → Option Text
  depth_number : ∀ t v, number t = some v → v.depth = 0

namespace JsonTree

variable {φ : Type u} (reading : JsonReading φ)

/-- The value of a literal. -/
def literalValue (t : Text) : Option (PyJson φ) :=
  if t = "null".toList then some .null
  else if t = "true".toList then some (.bool true)
  else if t = "false".toList then some (.bool false)
  else none

/-- The object with given fields, unless two of them have the same name. -/
def uniqueObject (fields : List (Text × PyJson φ)) : Option (PyJson φ) :=
  if (fields.map Prod.fst).Nodup then some (.obj fields) else none

mutual

/-- The value of a JSON text. -/
def value : JsonTree → Option (PyJson φ)
  | .literal t => literalValue t
  | .number t => reading.number t
  | .string t => (reading.string t).map .str
  | .array items => (valueItems items).map .arr
  | .object fields => (valueFields fields).bind uniqueObject

/-- The values of items. -/
def valueItems : List JsonTree → Option (List (PyJson φ))
  | [] => some []
  | item :: items =>
      (value item).bind fun v => (valueItems items).map fun vs => v :: vs

/-- The values of fields. -/
def valueFields : List (Text × JsonTree) → Option (List (Text × PyJson φ))
  | [] => some []
  | (key, field) :: fields =>
      (reading.string key).bind fun name => (value field).bind fun v =>
        (valueFields fields).map fun vs => (name, v) :: vs

end

variable {reading}

mutual

/-- The containers of a value are nested as those of its text. -/
theorem depth_value : (tree : JsonTree) → {v : PyJson φ} → value reading tree = some v →
    v.depth = tree.depth
  | .literal t, v, h => by
      rw [value, literalValue] at h
      split_ifs at h <;> cases h <;> rfl
  | .number t, v, h => reading.depth_number t v h
  | .string t, v, h => by
      rw [value, Option.map_eq_some_iff] at h
      obtain ⟨s, -, rfl⟩ := h
      rfl
  | .array items, v, h => by
      rw [value, Option.map_eq_some_iff] at h
      obtain ⟨vs, hvs, rfl⟩ := h
      rw [PyJson.depth, depth, depth_valueItems items hvs]
  | .object fields, v, h => by
      rw [value, Option.bind_eq_some_iff] at h
      obtain ⟨vs, hvs, h⟩ := h
      rw [uniqueObject] at h
      split_ifs at h
      cases h
      rw [PyJson.depth, depth, depth_valueFields fields hvs]

/-- The containers of items are nested as those of their texts. -/
theorem depth_valueItems : (items : List JsonTree) → {vs : List (PyJson φ)} →
    valueItems reading items = some vs → PyJson.depthItems vs = depthItems items
  | [], vs, h => by
      cases h
      rfl
  | item :: items, vs, h => by
      rw [valueItems, Option.bind_eq_some_iff] at h
      obtain ⟨v, hv, h⟩ := h
      obtain ⟨vs, hvs, rfl⟩ := Option.map_eq_some_iff.mp h
      rw [PyJson.depthItems, depthItems, depth_value item hv, depth_valueItems items hvs]

/-- The containers of fields are nested as those of their texts. -/
theorem depth_valueFields : (fields : List (Text × JsonTree)) →
    {vs : List (Text × PyJson φ)} → valueFields reading fields = some vs →
    PyJson.depthFields vs = depthFields fields
  | [], vs, h => by
      cases h
      rfl
  | (key, field) :: fields, vs, h => by
      rw [valueFields, Option.bind_eq_some_iff] at h
      obtain ⟨name, -, h⟩ := h
      obtain ⟨v, hv, h⟩ := Option.bind_eq_some_iff.mp h
      obtain ⟨vs, hvs, rfl⟩ := Option.map_eq_some_iff.mp h
      rw [PyJson.depthFields, depthFields, depth_value field hv, depth_valueFields fields hvs]

end

end JsonTree
