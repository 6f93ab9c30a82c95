namespace JackTokens

/-- Decimal digits without leading zeros, `0` for zero. -/
def decimal (n : Nat) : String :=
  String.ofList (Nat.toDigits 10 n)

/-- The number that a run of decimal digits denotes; leading zeros do not count. -/
def decimalValue (digits : List Char) : Nat :=
  Nat.ofDigitChars 10 digits 0

theorem decimalValue_decimal (n : Nat) : decimalValue (decimal n).toList = n := by
  simp [decimal, decimalValue, Nat.ofDigitChars_ten_toDigits]

end JackTokens
