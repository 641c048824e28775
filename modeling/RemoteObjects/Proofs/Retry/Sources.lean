import RemoteObjects.Proofs.Json.Detour
import RemoteObjects.Proofs.Wire.Order
import RemoteObjects.Retry.Policy

/-!
# Where a retry configuration comes from

A retry configuration is read from a text, or from a value that was read from the text before.
Both give the same configuration and so the same policy, in every form and with all that is passed
over, unless the text is an object that has a name twice.
-/

namespace RemoteObjects

open Json

theorem RetryConfig.settled_of_mem {v : Variant RetryConfig} (hv : v ∈ tagged.variants) :
    v.Settled := by
  simp only [tagged, List.mem_cons, List.not_mem_nil, or_false] at hv
  rcases hv with rfl | rfl
  · apply Variant.Settled.record
    exact .field (.count _ _) (.field (.number _ _) .done)
  · apply Variant.Settled.record
    exact .field (.count _ _) (.field (.number _ _) (.field (.number _ _) .done))

theorem RetryPolicy.ofString_of_ofString {s : String} {c : RetryConfig}
    (h : RetryConfig.ofString s = .ok c) : RetryPolicy.ofString s = RetryPolicy.ofConfig c := by
  rw [RetryPolicy.ofString, h]
  rfl

/-- From a text and from its value the same configurations are read, and the policy of the text is
that of the configuration. -/
theorem retry_config_either_way (s : String)
    (hnames : ∀ members, (Draft.ofTree (.object members)).SpelledBy (charsOf s) →
      (members.map Prod.fst).Nodup) :
    (∀ c, RetryConfig.ofString s = .ok c ↔
      ∃ v, Json.readString Decoder.value s = .ok v ∧ RetryConfig.ofValue v = .ok c) ∧
    ∀ c, RetryConfig.ofString s = .ok c → RetryPolicy.ofString s = RetryPolicy.ofConfig c := by
  refine ⟨fun c ↦ ?_, fun c ↦ RetryPolicy.ofString_of_ofString⟩
  rw [RetryConfig.ofString_eq_ok_iff,
    Tagged.read_eq_ok_iff_value (fun _ ↦ RetryConfig.settled_of_mem) hnames]
  apply exists_congr
  intro v
  rw [RetryConfig.ofValue_eq_ok_iff]
  rfl

/-- A name that stands twice is refused in a text, and of a value only the last of them is left. -/
example :
    let s := "\x7b\"kind\":\"fixed\",\"delay\":1,\"delay\":2\x7d"
    (RetryConfig.ofString s).toOption = none ∧
    (Json.readString Decoder.value s).toOption.bind (fun v ↦ (RetryConfig.ofValue v).toOption) =
      some (.fixed 10 (.ofNat 2)) := by decide +kernel

/-- A configuration after a member that nobody asked for. -/
def chattyTree : Tree :=
  .object [("x", .object [("a", .number (.natural 1)), ("a", .null)]),
    ("delay", .number (.natural 7)), ("kind", .text "fixed")]

def chattyText : String :=
  "\x7b\"x\":\x7b\"a\":1,\"a\":null\x7d, \"delay\":7, \"kind\":\"fixed\"\x7d"

theorem scan_chattyText : Token.scan (charsOf chattyText) = chattyTree.tokens := by
  decide +kernel

theorem nodup_chattyText (members : List (String × Tree))
    (h : (Draft.ofTree (.object members)).SpelledBy (charsOf chattyText)) :
    (members.map Prod.fst).Nodup := by
  have hdraft := (Draft.spelledBy_iff.mp h).2
  rw [scan_chattyText, chattyTree.ofTokens_tokens] at hdraft
  have htree := congrArg (fun read : Draft × Bool ↦ read.1.tree .value) hdraft
  simp only [Draft.tree_ofTree _ (show Place.Holds .value _ from trivial)] at htree
  cases htree
  decide

theorem retry_config_either_way_chatty :
    RetryConfig.ofString chattyText = .ok (.fixed 10 (.ofNat 7)) ∧
    (∃ v, Json.readString Decoder.value chattyText = .ok v ∧
      RetryConfig.ofValue v = .ok (.fixed 10 (.ofNat 7))) ∧
    RetryPolicy.ofString chattyText = RetryPolicy.ofConfig (.fixed 10 (.ofNat 7)) := by
  obtain ⟨hsame, hpolicy⟩ := retry_config_either_way chattyText nodup_chattyText
  have htext : RetryConfig.ofString chattyText = .ok (.fixed 10 (.ofNat 7)) := by decide +kernel
  exact ⟨htext, (hsame _).mp htext, hpolicy _ htext⟩

end RemoteObjects
