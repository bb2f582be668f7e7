import StockImport.Api.ContentDisposition
import StockImport.Site.Originals
import StockImport.Worker.Download

/-!
# The download of an original

`GET /reports/{id}/original`: the row in one transaction, the object at some later
moment, and a response that is sent chunk by chunk.
-/

set_option autoImplicit false

namespace StockImport.Site

open Csv Db Tables Storage Worker Transactional

/-! ## download_original -/

section Stream

variable {readFails leaves : Nat → Bool} {body : Bytes}

end Stream

/-! ## What was uploaded -/

section Uploaded

variable {settings : WorkerSettings} {service : ReportService}

end Uploaded

end StockImport.Site
