import Scaffold.Proofs.Manifest.Extent
import Scaffold.Proofs.Manifest.Parsed

/-!
# The canonical document of a manifest

A manifest that was read from a text is read again from its canonical document, and so writing it a
second time gives the same document.  The only thing asked of the manifest is that each of its
floating point numbers is read back from its shortest digits: the reader rounds more than once, and
for some numbers it ends at a neighbour.
-/

namespace Scaffold

open Data Json

variable {m : Manifest}

theorem rereads_of_writable {n : Numeral} (h : n.Writable)
    (hreads : ∀ x, n = .float x → x.isFinite = true → ReadsBack x) : Rereads n := by
  cases n with
  | integer i => exact spells_writeInt h.1 h.2
  | float x => exact spells_of_numeral? (hreads x rfl h)

theorem decodeText_pretty {α : Type} {decode : Tree → Decoded α} {v : Value} {a : α} {k : Nat}
    (hdecodes : Decodes decode v a) (h : Within Rereads k v) (hk : k < nestingLimit) :
    decodeText decode v.pretty = .ok a := by
  obtain ⟨hroot, htrailing⟩ := read_pretty h hk
  exact bind_eq_ok.mpr ⟨a, hdecodes _ hroot, bind_eq_ok.mpr ⟨(), noFault_eq_ok.mpr htrailing, rfl⟩⟩

theorem Manifest.ofJson_eq_ok {source : String} :
    Manifest.ofJson source = .ok m ↔
      decodeText (decodeManifest .jsonText) source = .ok m := by
  rw [Manifest.ofJson, Manifest.ofJsonNamed, readJsonAs, mapError_eq_ok]

/-- A manifest that a document can hold is read from its canonical document. -/
theorem Manifest.Fits.ofJson_canonical (h : m.Fits)
    (hreads : ∀ x, .float x ∈ m.toJson.numerals → x.isFinite = true → ReadsBack x) :
    Manifest.ofJson m.canonical = .ok m := by
  have hrereads : Within Rereads 10 m.toJson :=
    (within_manifest h).imp fun n hn hwritable ↦
      rereads_of_writable hwritable fun x hx ↦ hreads x (hx ▸ hn)
  exact Manifest.ofJson_eq_ok.mpr (decodeText_pretty (decodes_manifest h) hrereads (by decide))

theorem Manifest.fits_of_ofJson {source : String} (h : Manifest.ofJson source = .ok m) :
    m.Fits := by
  obtain ⟨read, hread, h⟩ := bind_eq_ok.mp (Manifest.ofJson_eq_ok.mp h)
  obtain ⟨_, -, h⟩ := bind_eq_ok.mp h
  cases h
  exact fits_of_decodeManifest (read_finite source) hread

/-- A manifest that was read, whatever the text, is read again from its canonical document as the
same manifest, and is then written as the same document. -/
theorem Manifest.ofJson_canonical_of_ofJson {source : String}
    (h : Manifest.ofJson source = .ok m)
    (hreads : ∀ x, .float x ∈ m.toJson.numerals → x.isFinite = true → ReadsBack x) :
    Manifest.ofJson m.canonical = .ok m ∧
      (Manifest.ofJson m.canonical).map Manifest.canonical = .ok m.canonical := by
  have hread : Manifest.ofJson m.canonical = .ok m :=
    (Manifest.fits_of_ofJson h).ofJson_canonical hreads
  refine ⟨hread, ?_⟩
  rw [hread]
  rfl

/-- A bound in its short form, a switch turned off, an empty pivot and a single endpoint. -/
def ratedPost : String :=
  "\x7b\"entities\":\x7b\"Post\":\x7b\"fields\":\x7b\"rank\":\x7b\"type\":\"number\"," ++
    "\"min\":0.5,\"default\":3,\"required\":false\x7d\x7d," ++
    "\"relations\":\x7b\"tags\":\x7b\"type\":\"belongsToMany\"," ++
    "\"entity\":\"Tag\",\"pivot\":\x7b\x7d\x7d\x7d,\"source\":\x7b\"baseUrl\":\"/api\"," ++
    "\"endpoints\":\x7b\"list\":\"/posts\"\x7d\x7d\x7d\x7d\x7d"

theorem Manifest.ofJson_canonical_ratedPost :
    ∃ m, Manifest.ofJson ratedPost = .ok m ∧
      m.toJson.numerals = [.integer 3, .float (Double.round false 1 2)] ∧
      Manifest.ofJson m.canonical = .ok m ∧
      (Manifest.ofJson m.canonical).map Manifest.canonical = .ok m.canonical := by
  have hnumerals : (Manifest.ofJson ratedPost).toOption.any (fun m ↦
      m.toJson.numerals = [.integer 3, .float (Double.round false 1 2)]) = true := by
    decide +kernel
  obtain ⟨m, hread, hnumerals⟩ := exists_ok_of_any hnumerals
  have hnumerals := of_decide_eq_true hnumerals
  refine ⟨m, hread, hnumerals, Manifest.ofJson_canonical_of_ofJson hread fun x hx _ ↦ ?_⟩
  have hx : x = Double.round false 1 2 := by simpa [hnumerals] using hx
  rw [hx]
  decide +kernel

-- 31.245270191439438 is written with these digits and read as its neighbour, 31.24527019143944
example : ¬ ReadsBack (Double.round false 31245270191439438 (10 ^ 15)) := by decide +kernel

end Scaffold
