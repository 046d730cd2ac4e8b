import DrawingMachine.Base.JsonNesting
import DrawingMachine.Protocol.Codec

/-!
# The nesting of a message

Before a message is parsed, its bytes are scanned for the nesting of its containers. The scan is
exact for JSON texts, and what it accepts never has more containers open in a parser than the
limit, whether it is a JSON text or not.
-/

namespace DrawingMachine

namespace Protocol

open JsonParser PyJson

/-- Reject bytes with containers that are nested too deep. -/
def ensureNestingDepth (raw : List UInt8) : Except CodecError Unit :=
  rejectIf (Scan.run maxJsonNestingDepth (.outside 0) raw = none)
    (malformed ("nesting depth exceeds " ++ toString maxJsonNestingDepth))

/-- The nesting is checked before a message is parsed. -/
theorem ensureNestingDepth_of_decodeObject {φ : Type} {json : PythonJson φ} {frame : List UInt8}
    {payload : JsonObject φ} (h : decodeObject json frame = .ok payload) :
  ensureNestingDepth frame.dropLast = .ok ()
  := by
  simp only [decodeObject, Except.bind_eq_ok_iff, Except.exists_unit_iff,
    rejectIf_eq_ok_iff] at h
  obtain ⟨-, -, -, hscan, -⟩ := h
  rw [ensureNestingDepth, rejectIf_eq_ok_iff]
  exact hscan

/-- The nesting of a JSON text is accepted when it is at most 64. -/
theorem ensureNestingDepth_encode {t : Text} {tree : JsonTree} (h : JsonText.IsDocument t tree) :
  ensureNestingDepth (Text.encode t) = .ok () ↔ tree.depth ≤ 64
  := by
  rw [ensureNestingDepth, rejectIf_eq_ok_iff, JsonText.run_document h]
  split
  · next hle => simpa [maxJsonNestingDepth] using hle
  · next hlt => simpa [maxJsonNestingDepth] using hlt

/-- The parser has never more than 64 containers open in bytes that are accepted. -/
theorem length_containers_of_ensureNestingDepth {raw front back : List UInt8} {s : State}
    (h : ensureNestingDepth raw = .ok ()) (hraw : raw = front ++ back)
    (hrun : runBytes start front = some s) :
  s.containers.length ≤ 64
  := by
  rw [ensureNestingDepth, rejectIf_eq_ok_iff, hraw] at h
  exact length_containers_le (s := start) trivial (Nat.zero_le _) (scan_ne_none_of_append h) hrun

/-- The check of the nesting is exact for the JSON texts, whose values the parser reads, and it
bounds the containers a parser has open in any bytes. -/
theorem ensureNestingDepth_exact :
  (∀ (t : Text) (tree : JsonTree), JsonText.IsDocument t tree →
    (ensureNestingDepth (Text.encode t) = .ok () ↔ tree.depth ≤ 64) ∧
      ∀ (φ : Type) (reading : JsonReading φ) (v : PyJson φ), tree.value reading = some v →
        (ensureNestingDepth (Text.encode t) = .ok () ↔ v.depth ≤ 64)) ∧
    (∀ raw front back : List UInt8, ensureNestingDepth raw = .ok () → raw = front ++ back →
      ∀ s, runBytes start front = some s → s.containers.length ≤ 64) ∧
    ∀ t : Text, AcceptsBytes (Text.encode t) ↔ ∃ tree, JsonText.IsDocument t tree
  := by
  refine ⟨?_, ?_, ?_⟩
  · intro t tree htree
    use ensureNestingDepth_encode htree
    intro φ reading v hv
    rw [JsonTree.depth_value tree hv]
    apply ensureNestingDepth_encode htree
  · intro raw front back h hraw s hrun
    apply length_containers_of_ensureNestingDepth h hraw hrun
  · intro t
    apply acceptsBytes_encode_iff

end Protocol

end DrawingMachine
