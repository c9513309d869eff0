/-
# EmbeddedHttp.Proofs.Response.Pages -- what the server answers on its own

A page stands in place of an answer.  It is a whole response of its own: a status line, four
headers, the empty line, and a document (`Bytes.IsPage`).  The headers tell how long the
document is, so a client knows where the page ends, and that the connection closes behind it.
For every status the page is one whose first line is that of the status
(`Status.isPage_errorPage`).

The server's name is not checked for line ends: it stands in the block as it is.
-/
import EmbeddedHttp.Proofs.Response.HeadLines
import EmbeddedHttp.Status

namespace EmbeddedHttp

set_option autoImplicit false

namespace Bytes

/-- The headers of a page. -/
def pageHeaders (serverName : String) (document : Bytes) : List (Bytes × Bytes) :=
  [(ofAscii "Content-Type", ofAscii "text/html"), (ofAscii "Server", ofText serverName),
    lengthHeader document.length, connectionHeader false]

/-- A page with a given first line. -/
def IsPage (line serverName : String) (page : Bytes) : Prop :=
  ∃ document, document ≠ [] ∧
    page = ofAscii line ++ ofAscii "\r\n" ++ headerLines (pageHeaders serverName document) ++
      ofAscii "\r\n" ++ document

theorem IsPage.ne_nil {line serverName : String} {page : Bytes}
    (isPage : IsPage line serverName page) : page ≠ [] := by
  obtain ⟨document, some, rfl⟩ := isPage
  exact List.append_ne_nil_of_right_ne_nil _ some

end Bytes

namespace Status

/-- The first line of the page for a status. -/
def pageLine (status : Status) : String :=
  "HTTP/1.0 " ++ toString status.code ++ " " ++ status.reason

theorem document_ne_nil (status : Status) : Bytes.ofAscii status.document ≠ [] := by
  have ends : ∀ {front last : String}, Bytes.ofAscii last ≠ [] →
      Bytes.ofAscii (front ++ last) ≠ [] := by
    intro front last some
    rw [Bytes.ofAscii_append]
    exact List.append_ne_nil_of_right_ne_nil _ some
  rw [document.eq_def]
  split <;> exact ends (by decide)

/-- **What the server answers on its own is a page**, whatever its name is. -/
theorem isPage_errorPage (status : Status) (serverName : String) :
    Bytes.IsPage status.pageLine serverName (status.errorPage serverName) := by
  refine ⟨_, status.document_ne_nil, ?_⟩
  have front : Bytes.ofAscii "\r\nContent-Type: text/html\r\nServer: " = Bytes.ofAscii "\r\n" ++
      (headerLine (Bytes.ofAscii "Content-Type") (Bytes.ofAscii "text/html") ++
        (Bytes.ofAscii "Server" ++ Bytes.ofAscii ": ")) := by decide
  have before : Bytes.ofAscii "\r\nContent-Length: " =
      Bytes.ofAscii "\r\n" ++ (Bytes.ofAscii "Content-Length" ++ Bytes.ofAscii ": ") := by decide
  have behind : Bytes.ofAscii "\r\nConnection: close\r\n\r\n" = Bytes.ofAscii "\r\n" ++
      (headerLine (Bytes.ofAscii "Connection") (Bytes.ofAscii "close") ++
        Bytes.ofAscii "\r\n") := by decide
  simp only [errorPage, pageLine, Bytes.ofAscii_append, front, before, behind, headerLines,
    Bytes.pageHeaders, lengthHeader, connectionHeader, headerLine, Bytes.ofNat,
    List.flatMap_cons, List.flatMap_nil, List.append_assoc, List.append_nil, Bool.false_eq_true,
    if_false]

end Status

end EmbeddedHttp
