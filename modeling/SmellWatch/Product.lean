/-! How the program calls itself. -/

namespace SmellWatch.Product

def name : String := "whiff"

def version : String := "0.0.0"

end SmellWatch.Product
