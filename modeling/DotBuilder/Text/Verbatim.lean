/-!
# Verbatim quoting

DOT text puts names and many values between double quotes and leaves what stands between them as
it is.
-/

namespace DotBuilder.Text

/-- A text between double quotes, nothing in it escaped. -/
def inQuotes (s : String) : String := "\"" ++ s ++ "\""

theorem toList_inQuotes (s : String) : (inQuotes s).toList = '"' :: (s.toList ++ ['"']) := by
  simp [inQuotes]

end DotBuilder.Text
