import RemoteMemory.Error
import RemoteMemory.Header.Basic

/-!
# Acceptable headers

A header is accepted when it starts with the sentinel, has the current version and its size field
is within the reader's bound. The tests are made in that order, and the first that fails is the
one reported.
-/

namespace RemoteMemory

namespace Header

def check (header : Header) (bound : UInt32) : Except Error Unit :=
  if header.magic ≠ sentinel then .error (.protocol (.badMagic header.magic))
  else if header.version ≠ currentVersion then
    .error (.protocol (.unsupportedVersion header.version))
  else if bound < header.byteCount then .error (.protocol (.oversized header.byteCount bound))
  else .ok ()

/-- The accepted headers, said without the order of the tests. -/
def Acceptable (header : Header) (bound : UInt32) : Prop :=
  header.magic = sentinel ∧ header.version = currentVersion ∧ header.byteCount ≤ bound

theorem check_eq_ok_iff {header : Header} {bound : UInt32} :
    header.check bound = .ok () ↔ header.Acceptable bound := by
  unfold check Acceptable
  repeat' split
  all_goals simp_all

/-- A refused header is refused with a protocol error. -/
theorem check_eq_error {header : Header} {bound : UInt32} {error : Error}
    (h : header.check bound = .error error) : ∃ fault, error = .protocol fault := by
  unfold check at h
  repeat' split at h
  all_goals simp_all
  all_goals exact ⟨_, h.symm⟩

end Header

end RemoteMemory
