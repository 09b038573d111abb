import Tr69HostIf.Store.KeyValue

/-!
# `IniFile`

The properties file of `IniFile.cpp`: a name, a `std::map` and the file of that name, which every change
rewrites. `FileSystem` maps the names of the existing files to their contents; whether an open succeeds is
an argument of the operation.
-/

namespace Tr69HostIf.Ini
open Store

/-- The existing files. -/
abbrev FileSystem := Dict Text Text

/-- The members of `IniFile`; no name with quotes is ever stored. -/
structure IniFile where
  filename : Text
  noQuote : '"' ∉ filename
  dict : Dict Text Text

/-- The constructor. -/
def IniFile.new : IniFile := ⟨[], List.not_mem_nil, ∅⟩

/-- `m_filename.erase(remove(...))`. -/
def eraseQuotes (t : Text) : Text := t.filter (· ≠ '"')

theorem not_mem_eraseQuotes (t : Text) : '"' ∉ eraseQuotes t := by simp [eraseQuotes]

theorem eraseQuotes_eq {t : Text} (h : '"' ∉ t) : eraseQuotes t = t := by
  unfold eraseQuotes
  rw [List.filter_eq_self]
  intro c hc
  rw [decide_eq_true_iff]
  rintro rfl
  exact h hc

/-- `IniFile::load`: the result and the object. -/
def IniFile.load (ok : Bool) (fs : FileSystem) (filename : Text) : Bool × IniFile :=
  let name := eraseQuotes filename
  match if ok then fs.lookup name else none with
  | some t => (true, ⟨name, not_mem_eraseQuotes filename, Store.load t⟩)
  | none => (false, ⟨name, not_mem_eraseQuotes filename, ∅⟩)

/-- `IniFile::value`. -/
def IniFile.value (f : IniFile) (key defaultValue : Text) : Text := (f.dict.lookup key).getD defaultValue

/-- `IniFile::flush`: the result and the files. -/
def IniFile.flush (ok : Bool) (fs : FileSystem) (f : IniFile) : Bool × FileSystem :=
  if ok then (true, fs.insert f.filename (render (byKey.enum f.dict))) else (false, fs)

/-- `IniFile::clear`. -/
def IniFile.clear (ok : Bool) (fs : FileSystem) (f : IniFile) : Bool × IniFile × FileSystem :=
  let f := { f with dict := ∅ }
  let r := f.flush ok fs
  (r.1, f, r.2)

/-- `IniFile::setValue`. -/
def IniFile.setValue (ok : Bool) (fs : FileSystem) (key value : Text) (f : IniFile) : Bool × IniFile × FileSystem :=
  if f.filename = [] then (false, f, fs)
  else
    let f := { f with dict := f.dict.insert key value }
    let r := f.flush ok fs
    (r.1, f, r.2)

/-- A file that was flushed is loaded as it was written. -/
theorem load_flush (fs : FileSystem) (f : IniFile) :
    (IniFile.load true (f.flush true fs).2 f.filename).2.dict = Store.load (render (byKey.enum f.dict)) := by
  have hl : (f.flush true fs).2.lookup (eraseQuotes f.filename) = some (render (byKey.enum f.dict)) := by
    show (fs.insert f.filename _).lookup _ = _
    rw [lookup_insert_ite, if_pos (eraseQuotes_eq f.noQuote)]
  unfold IniFile.load
  simp only [if_pos]
  rw [hl]

/-- `setValue` writes the dictionary with the new value, and a load of its file reads that. -/
theorem load_setValue (fs : FileSystem) (key value : Text) {f : IniFile} (h : f.filename ≠ []) :
    (IniFile.load true (f.setValue true fs key value).2.2 f.filename).2.dict =
      Store.load (render (byKey.enum (f.dict.insert key value))) := by
  unfold IniFile.setValue
  rw [if_neg h]
  exact load_flush fs { f with dict := f.dict.insert key value }

end Tr69HostIf.Ini
