import Dalvik.Interchange
import Dalvik.Loaded
import Dalvik.Proofs.Acceptance
import Dalvik.Proofs.DirectAccess
import Dalvik.Proofs.ReferentialIntegrity
import Dalvik.Proofs.SideIndexes
import Dalvik.Proofs.ClassLookup
import Dalvik.Proofs.Extension
import Dalvik.Proofs.PoolExtension
import Dalvik.Proofs.ImageExtension
import Dalvik.Proofs.Strictness
import Dalvik.Proofs.Failures
import Dalvik.Proofs.TableAdmission
import Dalvik.Proofs.ItemNotes
import Dalvik.Proofs.HeaderNotes
import Dalvik.Proofs.Course
import Dalvik.Proofs.StopReasons
import Dalvik.Proofs.Diagnostics
import Dalvik.Proofs.LoadedFiles
import Dalvik.Proofs.ArrayLimit
import Dalvik.Proofs.DeclaredLayout
import Dalvik.Proofs.OverlapNotes
import Dalvik.Proofs.DeltaCoding
import Dalvik.Proofs.TextForms
import Dalvik.Proofs.StringTexts
import Dalvik.Proofs.ShortForms
import Dalvik.Proofs.CursorSafety
import Dalvik.Proofs.Independence
import Dalvik.Proofs.HeaderCodec
import Dalvik.Proofs.GroupSums
import Dalvik.Proofs.MarkupListing
import Dalvik.Proofs.ReadableListing
import Dalvik.Proofs.TableRows
