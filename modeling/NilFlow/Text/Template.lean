/-!
# Message templates

A template is a text in which `%s` stands for the next argument and `%%` for a percent sign. What cannot be filled in is
shown rather than dropped.

* `fillTemplate`: the text of a template with its arguments.
-/

namespace NilFlow

/-- The characters of a filled template: a placeholder takes the next argument; a placeholder without argument, an
unknown placeholder and a percent sign at the end are written as a note that starts with `%!`. -/
def fillChars : List Char → List String → List Char × List String
  | '%' :: '%' :: t, as => let (cs, r) := fillChars t as; ('%' :: cs, r)
  | '%' :: c :: t, [] =>
    let (cs, r) := fillChars t []
    ('%' :: '!' :: c :: "(MISSING)".toList ++ cs, r)
  | '%' :: c :: t, a :: as =>
    let (cs, r) := fillChars t as
    if c = 's' || c = 'v' then (a.toList ++ cs, r)
    else ('%' :: '!' :: c :: "(string=".toList ++ a.toList ++ ')' :: cs, r)
  | ['%'], as => ("%!(NOVERB)".toList, as)
  | c :: t, as => let (cs, r) := fillChars t as; (c :: cs, r)
  | [], as => ([], as)

/-- A template with its arguments; arguments that no placeholder takes are listed at the end. -/
def fillTemplate (template : String) (args : List String) : String :=
  match fillChars template.toList args with
  | (cs, []) => String.ofList cs
  | (cs, rest) =>
    String.ofList cs ++ "%!(EXTRA " ++ ", ".intercalate (rest.map ("string=" ++ ·)) ++ ")"

end NilFlow
