/-! # The endpoint of the voice service -/

namespace Storyboard.Narration

/-- Where the voice service is reached below a base address, whatever slashes that ends with. -/
def endpoint (base : String) : String :=
  String.ofList ((base.toList.reverse.dropWhile (· == '/')).reverse) ++ "/tts"

end Storyboard.Narration
