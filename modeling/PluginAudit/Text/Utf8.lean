/-!
Bytes and text. Reading bytes as text never fails: a byte that is not part of a well-formed sequence
becomes one replacement character.
-/

namespace PluginAudit.Text

def replacement : Char := '�'

def isContinuation (b : UInt8) : Bool :=
  0x80 ≤ b && b ≤ 0xBF

def payload (b : UInt8) : Nat :=
  b.toNat % 64

/-- The character that starts with byte `lead`, and how many bytes of `rest` it takes. -/
def sequence? (lead : UInt8) (rest : List UInt8) : Option (Char × Nat) :=
  if lead < 0x80 then some (Char.ofNat lead.toNat, 0)
  else match rest with
    | [] => none
    | b :: rest =>
      if !isContinuation b then none
      else if 0xC2 ≤ lead && lead ≤ 0xDF then
        some (Char.ofNat (lead.toNat % 32 * 64 + payload b), 1)
      else match rest with
        | [] => none
        | c :: rest =>
          if !isContinuation c then none
          else if 0xE0 ≤ lead && lead ≤ 0xEF then
            if (lead == 0xE0 && b < 0xA0) || (lead == 0xED && 0x9F < b) then none
            else some (Char.ofNat (lead.toNat % 16 * 4096 + payload b * 64 + payload c), 2)
          else match rest with
            | [] => none
            | d :: _ =>
              if !isContinuation d then none
              else if 0xF0 ≤ lead && lead ≤ 0xF4 then
                if (lead == 0xF0 && b < 0x90) || (lead == 0xF4 && 0x8F < b) then none
                else some (Char.ofNat
                  (lead.toNat % 8 * 262144 + payload b * 4096 + payload c * 64 + payload d), 3)
              else none

/-- The text of some bytes, with a replacement character for each byte outside a sequence. -/
def decodeBytes (bytes : List UInt8) : List Char :=
  match bytes with
  | [] => []
  | lead :: rest =>
    match sequence? lead rest with
    | some (c, n) => c :: decodeBytes (rest.drop n)
    | none => replacement :: decodeBytes rest
termination_by bytes.length
decreasing_by
  · simp only [List.length_drop, List.length_cons]; omega
  · simp

def validBytes (bytes : List UInt8) : Bool :=
  match bytes with
  | [] => true
  | lead :: rest =>
    match sequence? lead rest with
    | some (_, n) => validBytes (rest.drop n)
    | none => false
termination_by bytes.length
decreasing_by simp only [List.length_drop, List.length_cons]; omega

end PluginAudit.Text
